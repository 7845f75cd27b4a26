import Terminay.Files.SessionRegistry

/-!
# Runs of releases

A release that answers with a failure has left the registry and every draft as they were; one that
succeeds has removed the session it found.
-/

namespace Terminay.Files
open Script

def FileSession.draft (s : FileSession) : Option Bytes × ℕ × Bool :=
  (s.draftBytes, s.draftRevision, s.dirty)

namespace FileSessionRegistry

/-- The same registered sessions, and the same drafts. -/
def Kept (r r' : FileSessionRegistry) : Prop :=
  r'.sessions = r.sessions ∧ ∀ n, (r'.objects n).draft = (r.objects n).draft

variable {r : FileSessionRegistry} {path : Str} {n : ℕ}

theorem kept_refl (r : FileSessionRegistry) : Kept r r := ⟨rfl, fun _ => rfl⟩

theorem kept_setObject {session : FileSession} :
    Kept r (r.setObject n session) ↔ session.draft = (r.objects n).draft := by
  constructor
  · intro h
    have hn := h.2 n
    simp only [setObject, Function.update_self] at hn
    exact hn
  · intro h
    refine ⟨rfl, fun m => ?_⟩
    by_cases hm : m = n
    · simp only [setObject, hm, Function.update_self, h]
    · simp only [setObject, Function.update_of_ne hm]

theorem reloaded_draft (s : FileSession) (metadata : Option FileMetadata) :
    (s.reloaded metadata).1.draft = (none, s.draftRevision, false) := by
  rw [FileSession.reloaded]
  cases metadata with
  | none => rfl
  | some metadata =>
    rw [Option.bind_some]
    cases checkMetadata metadata <;> rfl

/-- A reload takes a draft away, unless there is none. -/
theorem finishReload_kept (metadata : Option FileMetadata) :
    Kept r (r.finishReload n metadata).1 ↔
      (r.objects n).dirty = false ∧ (r.objects n).draftBytes = none := by
  rw [finishReload, kept_setObject, reloaded_draft, FileSession.draft]
  simp only [Prod.mk.injEq, true_and]
  exact ⟨fun h => ⟨h.2.symm, h.1.symm⟩, fun h => ⟨h.2.symm, h.1.symm⟩⟩

/-- What a reload does up to its wait. -/
theorem startReload_cases (r : FileSessionRegistry) (n : ℕ) :
    (∃ e, r.startReload n = (r, .resuming (some e)) ∧ (r.objects n).watchState = .closed) ∨
    r.startReload n = (r, .stating) ∧ (r.objects n).storage.stat = true ∨
    r.startReload n = r.finishReload n none ∧ (r.objects n).watchState ≠ .closed ∧
      (r.objects n).storage.stat = false := by
  rw [startReload, FileSession.checkReload]
  by_cases hclosed : (r.objects n).watchState = .closed
  · rw [if_pos hclosed]
    exact .inl ⟨_, rfl, hclosed⟩
  · rw [if_neg hclosed, if_neg (by simp)]
    by_cases hstat : (r.objects n).storage.stat = true
    · exact .inr (.inl ⟨by simp [hstat, FileSession.checkExpected], hstat⟩)
    · have hnone := Bool.eq_false_iff.mpr hstat
      exact .inr (.inr ⟨by simp [hnone, FileSession.checkExpected], hclosed, hnone⟩)

/-- A session that closes is no longer registered; one that does not stays as it was. -/
theorem closeSession_cases (r : FileSessionRegistry) (path : Str) (n : ℕ) :
    (∃ e, r.closeSession path n = (r, .answered (.error e)) ∧ (r.objects n).dirty = true ∧
      (r.objects n).watchState ≠ .closed) ∨
    ∃ r' closed, r.closeSession path n = (r', .answered (.ok closed)) ∧
      r'.sessions = Function.update r.sessions path none ∧
      ((r.objects n).dirty = true → (r.objects n).watchState = .closed) := by
  rw [closeSession, FileSession.close]
  by_cases hclosed : (r.objects n).watchState = .closed
  · rw [if_pos hclosed]
    exact .inr ⟨_, _, rfl, rfl, fun _ => hclosed⟩
  · rw [if_neg hclosed]
    by_cases hdirty : (r.objects n).dirty = true
    · rw [if_pos hdirty]
      exact .inl ⟨_, rfl, hdirty, hclosed⟩
    · rw [if_neg hdirty]
      exact .inr ⟨_, _, rfl, rfl, fun h => absurd h hdirty⟩

end FileSessionRegistry

/-! ## What a call owes -/

namespace ReleaseCall
open FileSessionRegistry

/-- No turn of the call has changed the registry or a draft. -/
def Untouched (call : ReleaseCall) : Prop := ∀ p ∈ call.own, Kept p.1 p.2

/-- The last turn removed the session that the call found, and the others removed none. -/
def Removed (call : ReleaseCall) : Prop :=
  ∃ earlier r r' n, call.own = earlier ++ [(r, r')] ∧ (∀ p ∈ earlier, p.2.sessions = p.1.sessions) ∧
    call.session = some n ∧ r.sessions call.path = some n ∧
    r'.sessions = Function.update r.sessions call.path none

def Honest (call : ReleaseCall) : Prop :=
  match call.answer with
  | none => ∀ p ∈ call.own, p.2.sessions = p.1.sessions
  | some (.error _) => call.Untouched
  | some (.ok _) => call.Removed

end ReleaseCall

namespace ReleaseCalls
open FileSessionRegistry

def Honest (s : ReleaseCalls) : Prop := ∀ call ∈ s.calls, call.Honest

/-- The condition of a step. -/
def Orderly (s : ReleaseCalls) : ReleaseInput → Prop
  | .release path confirmDirty => ∀ n, s.registry.sessions path = some n → confirmDirty = true →
      (s.registry.objects n).dirty = true → (s.registry.objects n).watchState ≠ .closed →
        (s.registry.objects n).storage.stat = true
  | .stat n answer => ∀ call ∈ s.calls[n]?, ∀ m ∈ call.session, call.stage = .stating →
      call.sync = true → answer.isSome = true →
        (s.registry.objects m).dirty = false ∧ (s.registry.objects m).draftBytes = none
  | .resume n => ∀ call ∈ s.calls[n]?, ∀ m ∈ call.session, ∀ failure,
      call.stage = .resuming failure →
        if failure.isSome = true ∨
          (s.registry.objects m).dirty = true ∧ (s.registry.objects m).watchState ≠ .closed then
          call.Untouched
        else s.registry.sessions call.path = some m
  | _ => True

variable {s : ReleaseCalls} {path : Str} {n m : ℕ} {call : ReleaseCall}

theorem start_honest (hs : s.Honest) (sync : Bool) (turn : FileSessionRegistry × ReleaseStage) :
    (s.start path sync turn).Honest ↔
      (ReleaseCall.mk path (s.registry.sessions path) sync turn.2 [(s.registry, turn.1)]).Honest := by
  constructor
  · intro h
    exact h _ (List.mem_append_right _ List.mem_cons_self)
  · intro h call hcall
    rcases List.mem_append.mp hcall with hcall | hcall
    · exact hs call hcall
    · rw [List.mem_singleton.mp hcall]
      exact h

theorem proceed_honest (hs : s.Honest) (hcall : s.calls[n]? = some call)
    (turn : FileSessionRegistry × ReleaseStage) :
    (s.proceed n call turn).Honest ↔
      ({ call with stage := turn.2, own := call.own ++ [(s.registry, turn.1)] } :
        ReleaseCall).Honest := by
  have hn : n < s.calls.length := (List.getElem?_eq_some_iff.mp hcall).1
  constructor
  · intro h
    exact h _ (List.mem_set hn _)
  · intro h c hc
    rcases List.mem_or_eq_of_mem_set hc with hc | rfl
    · exact hs c hc
    · exact h

/-- A turn that closes the session of a call, or fails to. -/
theorem closing_honest {earlier : List (FileSessionRegistry × FileSessionRegistry)} {sync : Bool}
    {r : FileSessionRegistry} (hkept : ∀ p ∈ earlier, p.2.sessions = p.1.sessions) :
    (ReleaseCall.mk path (some m) sync (r.closeSession path m).2
      (earlier ++ [(r, (r.closeSession path m).1)])).Honest ↔
    if (r.objects m).dirty = true ∧ (r.objects m).watchState ≠ .closed then
      ∀ p ∈ earlier, Kept p.1 p.2
    else r.sessions path = some m := by
  rcases closeSession_cases r path m with ⟨e, hclose, hdirty, hopen⟩ |
    ⟨r', closed, hclose, hsessions, hclosed⟩
  · rw [hclose, if_pos ⟨hdirty, hopen⟩]
    constructor
    · intro h p hp
      exact h p (List.mem_append_left _ hp)
    · intro h p hp
      rcases List.mem_append.mp hp with hp | hp
      · exact h p hp
      · rw [List.mem_singleton.mp hp]
        exact kept_refl r
  · rw [hclose, if_neg fun h => h.2 (hclosed h.1)]
    constructor
    · rintro ⟨earlier', r₀, r₁, k, hown, -, hk, hr, -⟩
      have hlast := List.append_inj_right' hown rfl
      cases hlast
      cases hk
      exact hr
    · intro h
      exact ⟨earlier, r, r', m, rfl, hkept, rfl, h, hsessions⟩

theorem no_turns : ∀ p ∈ ([] : List (FileSessionRegistry × FileSessionRegistry)),
    p.2.sessions = p.1.sessions := nofun

theorem untouched_one {found : Option ℕ} {sync : Bool} {stage : ReleaseStage}
    {r : FileSessionRegistry} :
    (ReleaseCall.mk path found sync stage [(r, r)]).Untouched := by
  intro p hp
  rw [List.mem_singleton.mp hp]
  exact kept_refl r

theorem release_step (hs : s.Honest) (path : Str) (confirmDirty : Bool) :
    (s.step (.release path confirmDirty)).Honest ↔ s.Orderly (.release path confirmDirty) := by
  refine (start_honest hs true _).trans ?_
  change _ ↔ ∀ n, _
  rw [release, releaseWith]
  cases hfound : s.registry.sessions path with
  | none => exact ⟨fun _ => nofun, fun _ => untouched_one⟩
  | some n =>
    dsimp only
    by_cases hdirty : (s.registry.objects n).dirty = true
    · rw [if_pos hdirty]
      cases confirmDirty with
      | false => exact ⟨fun _ _ _ => nofun, fun _ => untouched_one⟩
      | true =>
        rw [if_neg (by simp), dropReload]
        rcases startReload_cases s.registry n with ⟨e, hstart, hclosed⟩ | ⟨hstart, hstat⟩ |
          ⟨hstart, hopen, hstat⟩
        · rw [hstart]
          refine ⟨fun _ m hm _ _ h => ?_, fun _ => untouched_one⟩
          cases hm
          exact absurd hclosed h
        · rw [hstart]
          refine ⟨fun _ m hm _ _ _ => ?_, fun _ => untouched_one⟩
          cases hm
          exact hstat
        · rw [hstart]
          constructor
          · intro h
            have hkept := h _ List.mem_cons_self
            have hclean := ((finishReload_kept none).mp hkept).1
            rw [hdirty] at hclean
            cases hclean
          · intro h
            have htrue := h n rfl rfl hdirty hopen
            rw [hstat] at htrue
            cases htrue
    · rw [if_neg hdirty]
      refine ⟨fun _ m hm _ h => ?_, fun _ => ?_⟩
      · cases hm
        exact absurd h hdirty
      · refine (closing_honest no_turns).mpr ?_
        rw [if_neg fun h => hdirty h.1]
        exact hfound

theorem releaseAsync_step (hs : s.Honest) (path : Str) (confirmDirty : Bool) :
    (s.step (.releaseAsync path confirmDirty)).Honest := by
  refine (start_honest hs false _).mpr ?_
  rw [releaseAsync, releaseWith]
  cases hfound : s.registry.sessions path with
  | none => exact untouched_one
  | some n =>
    dsimp only
    by_cases hdirty : (s.registry.objects n).dirty = true
    · rw [if_pos hdirty]
      split_ifs with hconfirm
      · exact untouched_one
      · rcases startReload_cases s.registry n with ⟨e, hstart, -⟩ | ⟨hstart, -⟩ | ⟨hstart, -⟩
        all_goals rw [hstart]
        all_goals intro p hp
        all_goals rw [List.mem_singleton.mp hp]
        rfl
    · rw [if_neg hdirty]
      refine (closing_honest no_turns).mpr ?_
      rw [if_neg fun h => hdirty h.1]
      exact hfound

/-- A turn at the end of a call whose earlier turns changed nothing. -/
theorem untouched_append {earlier : List (FileSessionRegistry × FileSessionRegistry)}
    {r r' : FileSessionRegistry} (h : ∀ p ∈ earlier, Kept p.1 p.2) :
    (∀ p ∈ earlier ++ [(r, r')], Kept p.1 p.2) ↔ Kept r r' := by
  constructor
  · intro hall
    exact hall (r, r') (List.mem_append_right _ List.mem_cons_self)
  · intro hkept p hp
    rcases List.mem_append.mp hp with hp | hp
    · exact h p hp
    · rw [List.mem_singleton.mp hp]
      exact hkept

theorem sessions_append {earlier : List (FileSessionRegistry × FileSessionRegistry)}
    {r r' : FileSessionRegistry} (h : ∀ p ∈ earlier, p.2.sessions = p.1.sessions)
    (hsame : r'.sessions = r.sessions) :
    ∀ p ∈ earlier ++ [(r, r')], p.2.sessions = p.1.sessions := by
  intro p hp
  rcases List.mem_append.mp hp with hp | hp
  · exact h p hp
  · rw [List.mem_singleton.mp hp]
    exact hsame

theorem statted_honest (h : call.Honest) (hstage : call.stage = .stating)
    (r : FileSessionRegistry) (answer : Option FileMetadata) :
    ({ call with stage := (r.statted m call.sync answer).2,
                 own := call.own ++ [(r, (r.statted m call.sync answer).1)] } :
      ReleaseCall).Honest ↔
    (call.sync = true → answer.isSome = true →
      (r.objects m).dirty = false ∧ (r.objects m).draftBytes = none) := by
  obtain ⟨path, session, sync, stage, own⟩ := call
  cases hstage
  cases sync with
  | true =>
    have hown : ∀ p ∈ own, Kept p.1 p.2 := h
    refine (untouched_append hown).trans ?_
    cases answer with
    | none => exact ⟨fun _ _ => nofun, fun _ => kept_refl r⟩
    | some metadata =>
      refine (finishReload_kept (some metadata)).trans ?_
      exact ⟨fun h _ _ => h, fun h => h rfl rfl⟩
  | false =>
    refine ⟨fun _ => nofun, fun _ => ?_⟩
    have hown : ∀ p ∈ own, p.2.sessions = p.1.sessions := h
    cases answer with
    | none => exact sessions_append hown rfl
    | some metadata => exact sessions_append hown rfl

theorem resumed_honest {failure : Option ReleaseError} (h : call.Honest)
    (hstage : call.stage = .resuming failure) (hsession : call.session = some m)
    (r : FileSessionRegistry) :
    ({ call with stage := (r.resumed call.path m failure).2,
                 own := call.own ++ [(r, (r.resumed call.path m failure).1)] } :
      ReleaseCall).Honest ↔
    if failure.isSome = true ∨ (r.objects m).dirty = true ∧ (r.objects m).watchState ≠ .closed then
      call.Untouched
    else r.sessions call.path = some m := by
  obtain ⟨path, session, sync, stage, own⟩ := call
  cases hstage
  cases hsession
  have hown : ∀ p ∈ own, p.2.sessions = p.1.sessions := by
    cases sync with
    | true => exact fun p hp => (h p hp).1
    | false => exact h
  cases failure with
  | some e =>
    rw [if_pos (.inl rfl)]
    constructor
    · intro hall p hp
      exact hall p (List.mem_append_left _ hp)
    · intro hall
      exact (untouched_append hall).mpr (kept_refl r)
  | none =>
    refine (closing_honest hown).trans ?_
    simp only [Option.isSome_none, Bool.false_eq_true, false_or]
    exact Iff.rfl

theorem step_honest (s : ReleaseCalls) (input : ReleaseInput) (hs : s.Honest) :
    (s.step input).Honest ↔ s.Orderly input := by
  cases input with
  | release path confirmDirty => exact release_step hs path confirmDirty
  | releaseAsync path confirmDirty => exact ⟨fun _ => trivial, fun _ => releaseAsync_step hs path confirmDirty⟩
  | stat n answer =>
    rw [step, Orderly]
    cases hcall : s.calls[n]? with
    | none =>
      refine ⟨fun _ c hc => ?_, fun _ => hs⟩
      cases hc
    | some call =>
      have hhonest := hs call (List.mem_of_getElem? hcall)
      dsimp only
      split
      · rename_i m hsession hstage
        refine (proceed_honest hs hcall _).trans ((statted_honest hhonest hstage _ answer).trans ?_)
        constructor
        · intro h c hc m' hm' _
          cases hc
          rw [hsession] at hm'
          cases hm'
          exact h
        · intro h
          exact h call rfl m hsession hstage
      · rename_i hother
        refine ⟨fun _ c hc m hm hstage => ?_, fun _ => hs⟩
        cases hc
        exact absurd hstage (hother m hm)
  | resume n =>
    rw [step, Orderly]
    cases hcall : s.calls[n]? with
    | none =>
      refine ⟨fun _ c hc => ?_, fun _ => hs⟩
      cases hc
    | some call =>
      have hhonest := hs call (List.mem_of_getElem? hcall)
      dsimp only
      split
      · rename_i m failure hsession hstage
        refine (proceed_honest hs hcall _).trans
          ((resumed_honest hhonest hstage hsession _).trans ?_)
        constructor
        · intro h c hc m' hm' failure' hstage'
          cases hc
          rw [hsession] at hm'
          cases hm'
          rw [hstage] at hstage'
          cases hstage'
          exact h
        · intro h
          exact h call rfl m hsession failure hstage
      · rename_i hother
        refine ⟨fun _ c hc m hm failure hstage => ?_, fun _ => hs⟩
        cases hc
        exact absurd hstage (hother m failure hm)
  | others registry => exact ⟨fun _ => trivial, fun _ => hs⟩

/-- A session with a local edit, of a storage without `stat`. -/
def edited : FileSessionRegistry :=
  { sessions := fun path => if path = js "a" then some 0 else none
    objects := fun _ =>
      { storage := ⟨false, true, false⟩, maxDraftBytes := 100, diskRevision := 1
        draftRevision := 1, baseDraftRevision := 0, draftBaseDiskRevision := 1
        diskIdentity := none, diskMtimeMs := none, diskMode := none, size := some 1
        draftBytes := some [66], diskBytes := some [65], dirty := true, conflict := false
        watchState := .watching } }

end ReleaseCalls

end Terminay.Files
