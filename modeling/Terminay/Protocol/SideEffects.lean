import Terminay.Protocol.ApplyCommand
import Terminay.Protocol.Closable

/-!
# When handling a command has side effects

A refused command should leave the server alone, and so should the replay of a committed one.
-/

namespace Terminay.Protocol
open Script Workspace

variable {ν : Type} [Engine ν] {host : Host ν} {env : Interleaving ν} {request : CommandRequest ν}
  {requested c : Command ν} {now : ν} {written : Bool} {s : WorkspaceStore ν}

def ClosesNothing (host : Host ν) (st : WorkspaceState ν) (c : Command ν) : Prop :=
  terminalSessionIdsClosedBy st c = [] ∨ host.closeTerminalSessions = none ∧
    (c.kind ≠ some .projectClose ∨ host.closeProjectTerminalSessions = none)

omit [Engine ν] in
theorem closeCalls_nil {sessionIds : List (Json ν)} :
    closeCalls host c sessionIds = [] ↔ sessionIds = [] ∨ host.closeTerminalSessions = none ∧
      (c.kind ≠ some .projectClose ∨ host.closeProjectTerminalSessions = none) := by
  unfold closeCalls
  by_cases hids : sessionIds = []
  · simp [hids]
  · by_cases hkind : c.kind = some .projectClose
    · rcases host.closeTerminalSessions with _ | closed <;>
        rcases host.closeProjectTerminalSessions with _ | projectClosed <;> simp [hids, hkind]
    · rcases host.closeTerminalSessions with _ | closed <;> simp [hids, hkind]

theorem withDefaultProjectRoot_ok {root : RootHost ν}
    (h : withDefaultProjectRoot root requested = .ok c) :
    c.kind = requested.kind ∧ (requested.kind ≠ some .projectCreate → c = requested) := by
  unfold withDefaultProjectRoot at h
  split at h
  · cases h
    exact ⟨rfl, fun _ => rfl⟩
  · rename_i hcreate
    have hkind : requested.kind = some .projectCreate := not_not.mp hcreate
    refine ⟨?_, fun hne => absurd hkind hne⟩
    split at h
    · cases h
    · split at h
      · cases h
        rfl
      · split at h
        · cases h
          rfl
        · split at h
          · cases h
            rfl
          · cases h

theorem closesNothing_rooted {root : RootHost ν} (h : withDefaultProjectRoot root requested = .ok c)
    (st : WorkspaceState ν) : ClosesNothing host st c ↔ ClosesNothing host st requested := by
  obtain ⟨hkind, hsame⟩ := withDefaultProjectRoot_ok h
  by_cases hcreate : requested.kind = some .projectCreate
  · have hnone : ∀ d : Command ν, d.kind = some .projectCreate → ClosesNothing host st d :=
      fun d hd => Or.inl (by simp [terminalSessionIdsClosedBy, hd])
    exact iff_of_true (hnone c (hkind.trans hcreate)) (hnone requested hcreate)
  · rw [hsame hcreate]

/-- A refused command leaves the server alone exactly when it would have closed
no terminal. -/
theorem refusal_silent_iff
    (hrefused : (applyCommand host env request requested now written s).refused = true) :
    (applyCommand host env request requested now written s).effects = [] ↔
      ClosesNothing host (runCalls s env.rooted).current requested := by
  have hhandles := applyCommand_handles host env request requested now written s
  generalize applyCommand host env request requested now written s = handled at hhandles hrefused ⊢
  cases hhandles with
  | stopped _ hasked => simp [Handled.refused, hasked] at hrefused
  | refused c command _ hc hasked _ heffects =>
    rw [heffects, closingCalls, closeCalls_nil]
    exact closesNothing_rooted hc _
  | accepted c command _ hc hasked haccepted hstore heffects =>
    rcases hanswer : (apply (askedStore host env c (runCalls s env.rooted))
      ⟨request.commandId, request.expectedRevision, command⟩ now written).2 with _ | conflict | _
    · simp [Handled.refused, hasked, hanswer] at hrefused
    · have hnone := haccepted _ hasked
      simp [hanswer, refusedAnswer] at hnone
    · simp [Handled.refused, hasked, hanswer] at hrefused

def fullHost : Host ℤ :=
  ⟨⟨false, none, none⟩, true, some true, some true, some true, true, true⟩

def alone : Interleaving ℤ := ⟨[], [], [], [], [], []⟩

def closePanel (panelId : String) : Command ℤ :=
  ⟨js "panel.close", Table.ofEntries [(js "panelId", .str (js panelId))]⟩

theorem unknown_panel_refused_silently :
    (applyCommand fullHost alone ⟨js "c1", none, none, false⟩ (closePanel "a") 0 true
      (afterCalls [])).effects = [] :=
  (refusal_silent_iff (by decide +kernel)).mpr (Or.inl (by decide +kernel))

/-- A client whose view of the workspace is stale closes a terminal that stays in
the workspace. -/
theorem stale_close_kills_terminal :
    let handled := applyCommand fullHost alone ⟨js "c3", some 0, none, false⟩ (closePanel "a") 0 true
      (afterCalls (twoTerminals.take 2))
    handled.refused = true ∧ handled.effects = [.closeTerminalSessions [.str (js "s1")]] := by
  decide +kernel

/-! ## Replays -/

def Effect.touches : Effect ν → Bool
  | closeTerminalSessions _ | closeProjectTerminalSessions _ | releaseProject _
  | rehomeTerminalSession _ | projectLifecycle _ => true
  | commitRoot | workspaceChanged .. => false

/-- The state in which the replayed command finds nothing to do. -/
structure ReplayQuiet (host : Host ν) (env : Interleaving ν) (c : Command ν) (s : WorkspaceStore ν) :
    Prop where
  closes : ClosesNothing host (runCalls s env.rooted).current c
  releases : c.kind ≠ some .projectClose ∨ host.releaseProject = none
  rehomes : terminalSessionRehomedBy (askedStore host env c (runCalls s env.rooted)).current c = none ∨
    host.rehomeTerminalSession = false
  announces : host.eventJournal = false ∨ (needsRoot host c = true ∧ host.commitRoot = false) ∨
    lifecycleOf c (askedStore host env c (runCalls s env.rooted)).current
      (lastStore host env c (askedStore host env c (runCalls s env.rooted))).current = none

def Untouched (effects : List (Effect ν)) : Prop := ∀ e ∈ effects, e.touches = false

omit [Engine ν] in
theorem untouched_append {xs ys : List (Effect ν)} :
    Untouched (xs ++ ys) ↔ Untouched xs ∧ Untouched ys := by
  simp only [Untouched, List.mem_append, or_imp, forall_and]

theorem closeCalls_untouched {st : WorkspaceState ν} :
    Untouched (closeCalls host c (terminalSessionIdsClosedBy st c)) ↔ ClosesNothing host st c := by
  rw [ClosesNothing, ← closeCalls_nil]
  refine ⟨fun h => ?_, fun h => by simp [h, Untouched]⟩
  refine List.eq_nil_iff_forall_not_mem.mpr fun e he => absurd (h e he) ?_
  unfold closeCalls at he
  split_ifs at he <;> simp at he <;> rcases he with rfl | rfl <;> simp [Effect.touches]

omit [Engine ν] in
theorem releaseCalls_untouched :
    Untouched (releaseCalls host c) ↔ c.kind ≠ some .projectClose ∨ host.releaseProject = none := by
  unfold releaseCalls
  split_ifs with h
  · obtain ⟨hkind, hrelease⟩ := h
    simp [Untouched, Effect.touches, hkind, Option.isSome_iff_ne_none.mp hrelease]
  · rw [not_and_or, Option.not_isSome_iff_eq_none] at h
    exact iff_of_true (by simp [Untouched]) h

theorem rehomeCalls_untouched {st : WorkspaceState ν} :
    Untouched (rehomeCalls host st c) ↔
      terminalSessionRehomedBy st c = none ∨ host.rehomeTerminalSession = false := by
  unfold rehomeCalls
  rcases terminalSessionRehomedBy st c with _ | rehome
  · simp [Untouched]
  · rcases host.rehomeTerminalSession <;> simp [Untouched, Effect.touches]

omit [Engine ν] in
theorem changeCalls_untouched {st : WorkspaceState ν} {projectId : Option Str} :
    Untouched (changeCalls host st projectId) := by
  unfold changeCalls
  split_ifs <;> simp [Untouched, Effect.touches]

theorem lifecycleCalls_untouched {before after : WorkspaceState ν} :
    Untouched (lifecycleCalls host c before after) ↔
      host.eventJournal = false ∨ lifecycleOf c before after = none := by
  unfold lifecycleCalls
  rcases host.eventJournal
  · simp [Untouched]
  · rcases lifecycleOf c before after <;> simp [Untouched, Effect.touches]

theorem followUps_untouched {before after : WorkspaceState ν} :
    Untouched (followUps host c before after) ↔
      (c.kind ≠ some .projectClose ∨ host.releaseProject = none) ∧
        (terminalSessionRehomedBy before c = none ∨ host.rehomeTerminalSession = false) ∧
        (host.eventJournal = false ∨ (needsRoot host c = true ∧ host.commitRoot = false) ∨
          lifecycleOf c before after = none) := by
  unfold followUps
  by_cases hroot : needsRoot host c = true
  · have hkind : c.kind = some .projectCreate := by
      simp only [needsRoot, Bool.and_eq_true, decide_eq_true_eq] at hroot
      exact hroot.1.1
    have hrehome : terminalSessionRehomedBy before c = none := by
      simp [terminalSessionRehomedBy, hkind]
    have hcommit : ∀ l : List (Effect ν), Untouched (.commitRoot :: l) ↔ Untouched l := by
      intro l
      simp [Untouched, Effect.touches]
    rw [if_pos hroot, hcommit]
    split_ifs with hdone
    · rw [untouched_append, lifecycleCalls_untouched]
      simp [changeCalls_untouched, hkind, hrehome, hroot, hdone]
    · simp [Untouched, hkind, hrehome, hroot, hdone]
  · rw [if_neg hroot, untouched_append, releaseCalls_untouched]
    split_ifs with hfailed
    · simp [hfailed.1, hfailed.2]
    · rw [untouched_append, untouched_append, rehomeCalls_untouched, lifecycleCalls_untouched]
      simp [changeCalls_untouched, hroot]

omit [Engine ν] in
theorem remembered_of_commit {commandId : ProtocolId} (h : s.remembersCommit commandId = true) :
    ∃ prior, s.outcomes.get commandId = some prior := by
  unfold WorkspaceStore.remembersCommit at h
  split at h
  · rename_i hprior
    exact ⟨_, hprior⟩
  · cases h

/-- The replay of a command that the store still remembers as committed leaves
the server as the other handlers make it exactly when it finds nothing to do. -/
theorem replay_silent_iff (hc : withDefaultProjectRoot host.root requested = .ok c)
    (hprior : (askedStore host env c (runCalls s env.rooted)).remembersCommit request.commandId =
      true)
    (haccepted : (applyCommand host env request requested now written s).accepted = true) :
    ((applyCommand host env request requested now written s).store =
        lastStore host env c (askedStore host env c (runCalls s env.rooted)) ∧
      Untouched (applyCommand host env request requested now written s).effects) ↔
    ReplayQuiet host env c s := by
  have hhandles := applyCommand_handles host env request requested now written s
  generalize applyCommand host env request requested now written s = handled at hhandles haccepted ⊢
  cases hhandles with
  | stopped _ hasked => simp [Handled.accepted, hasked] at haccepted
  | refused c' command _ hc' hasked hrefused heffects =>
    unfold Handled.accepted at haccepted
    split at haccepted
    · rename_i hok
      exact absurd rfl (hrefused _ hok)
    · cases haccepted
  | accepted c' command _ hc' hasked hnone hstore heffects =>
    rw [hc, Except.ok.injEq] at hc'
    subst hc'
    obtain ⟨prior, hprior⟩ := remembered_of_commit hprior
    rw [apply_remembered hprior] at hstore
    rw [heffects, untouched_append, closingCalls, closeCalls_untouched, followUps_untouched, hstore]
    constructor
    · rintro ⟨-, hcloses, hreleases, hrehomes, hannounces⟩
      exact ⟨hcloses, hreleases, hrehomes, hannounces⟩
    · exact fun h => ⟨rfl, h.closes, h.releases, h.rehomes, h.announces⟩

def requestOf (commandId : String) : CommandRequest ℤ := ⟨js commandId, none, none, false⟩

def createView : Command ℤ :=
  ⟨js "view.create", Table.ofEntries [(js "viewId", .str (js "v")), (js "name", .str (js "V"))]⟩

def viewCreated : WorkspaceStore ℤ :=
  afterCalls [clientCall "c1" "view.create" [("viewId", .str (js "v")), ("name", .str (js "V"))] 0]

theorem replayed_view_silent :
    (applyCommand fullHost alone (requestOf "c1") createView 0 true viewCreated).store = viewCreated ∧
      Untouched (applyCommand fullHost alone (requestOf "c1") createView 0 true viewCreated).effects := by
  have hc : withDefaultProjectRoot fullHost.root createView = .ok createView := if_pos (by decide)
  have hquiet : ReplayQuiet fullHost alone createView viewCreated :=
    ⟨Or.inl (by decide +kernel), Or.inl (by decide +kernel), Or.inl (by decide +kernel),
      Or.inr (Or.inr (by decide +kernel))⟩
  exact (replay_silent_iff hc (by decide +kernel) (by decide +kernel)).mpr hquiet

def closeProject : Command ℤ :=
  ⟨js "project.close", Table.ofEntries [(js "projectId", .str (js "p"))]⟩

def openCall (commandId : String) : ClientCall ℤ :=
  clientCall commandId "project.create"
    [("projectId", .str (js "p")), ("viewId", .str (js "srv:view:default")),
      ("root", .str (js "/home"))] 0

/-- A client sends the close of a project again after another client opened the
project anew: the new project loses what the server holds for it. -/
theorem replayed_close_releases :
    let s := afterCalls [openCall "c1", clientCall "c2" "project.close" [("projectId", .str (js "p"))] 0,
      openCall "c3"]
    let handled := applyCommand fullHost alone (requestOf "c2") closeProject 0 true s
    s.remembersCommit (js "c2") = true ∧ handled.store.current.projects[js "p"]?.isSome = true ∧
      handled.effects = [.releaseProject (some (.str (js "p"))),
        .workspaceChanged (js "srv") 3 (js "3") (some (js "p"))] := by
  decide +kernel

end Terminay.Protocol
