import Terminay.Activity.Announcements

/-!
# Runs of the activity reducer

An operation ends the periods of its session that are over, and a reader sees that.
-/

namespace Terminay.Activity
open Script Terminal Outcome

section Heard

variable (options : ReducerOptions) (r : TerminalActivityReducer)

/-- The operation on the session that `prepare` makes ready is not told of an end it would have to
publish, or it writes something of its own over the end; and there is a revision left. -/
def Timely (sessionId : Str) (projectId : Option Str) (now : ℚ)
    (prepare : MutableSession → MutableSession) (writes : MutableSession → Bool) : Prop :=
  r.currentRevision < maxSafeInteger ∧
  (r.misses sessionId projectId now = false → ∀ session ∈ r.get sessionId,
    Unseen session ((prepare session).expire options now) ∨
    ¬ Unseen (prepare session) ((prepare session).expire options now) ∧
      writes ((prepare session).expire options now) = true)

def turns (session : MutableSession) (now : ℚ) : Bool :=
  session.isWorking options now ≠ decide (session.status = .working)

def signalWrites (signal : TerminalActivitySignal) (now : ℚ) (session : MutableSession) : Bool :=
  match signal with
  | .title | .resize => turns options session now
  | .foregroundLimited =>
    session.foregroundObservation = .available ∨ turns options session now = true
  | _ => true

def rawWrites (now : ℚ) (session : MutableSession) : Bool :=
  !session.claimed &&
    ((!session.recentInput now && !session.recentResize now) || turns options session now)

def isSeen (session : MutableSession) : Bool :=
  session.acknowledged && !session.attention && session.rawActivityAt.isNone

/-- Whatever the operation changes before it takes the snapshot it compares with, a reader hears. -/
def Heard : ActivityInput → Prop
  | .register sessionId projectId _ => ∀ session ∈ r.get sessionId,
      matchesProject session projectId = true → Unseen session (adopted session projectId)
  | .applySignal sessionId signal projectId now =>
    Timely options r sessionId projectId now (adopted · projectId) (signalWrites options signal now)
  | .applyRawOutput sessionId projectId now =>
    Timely options r sessionId projectId now (adopted · projectId) (rawWrites options now)
  | .applyProviderActivity sessionId update projectId now =>
    Timely options r sessionId projectId now (adopted · projectId) fun session =>
      !session.fences update
  | .acknowledge sessionId projectId now =>
    Timely options r sessionId projectId now id fun session => !isSeen session
  | .markTerminalExit _ _ => r.currentRevision < maxSafeInteger
  | .tick _ => r.currentRevision + r.sessionsById.length ≤ maxSafeInteger
  | .rehome _ _ _ => r.currentRevision < maxSafeInteger

instance (sessionId : Str) (projectId : Option Str) (now : ℚ)
    (prepare : MutableSession → MutableSession) (writes : MutableSession → Bool) :
    Decidable (Timely options r sessionId projectId now prepare writes) := by
  unfold Timely
  infer_instance

instance : DecidablePred (Heard options r) := fun input => by
  unfold Heard
  cases input <;> infer_instance

end Heard

section Expired

variable {options : ReducerOptions} {session old e : MutableSession} {now : ℚ}

def Ended (source : Str) : Prop :=
  source = js "structured:stale" ∨ source = js "structured:input-quiet"

theorem expireProgress_unseen (session : MutableSession) (now : ℚ) :
    Unseen session (session.expireProgress now) ∨
      session.provider = none ∧ (session.expireProgress now).source = js "structured:stale" := by
  rw [MutableSession.expireProgress]
  split_ifs with _ hprovider
  · exact .inr ⟨hprovider, rfl⟩
  · exact .inl rfl
  · exact .inl rfl

theorem expireRaw_unseen (options : ReducerOptions) (session : MutableSession) (now : ℚ) :
    Unseen session (session.expireRaw options now) := by
  rw [MutableSession.expireRaw]
  split_ifs <;> rfl

theorem expireInputQuiet_unseen (session : MutableSession) (now : ℚ) :
    Unseen session (session.expireInputQuiet now) ∨ session.provider = none ∧
      (session.expireInputQuiet now).source = js "structured:input-quiet" := by
  rw [MutableSession.expireInputQuiet]
  split_ifs with _ hquiet
  · exact .inr ⟨hquiet.1, rfl⟩
  · exact .inl rfl
  · exact .inl rfl

theorem unseen_provider (h : Unseen old e) : e.provider = old.provider :=
  (congrArg TerminalActivitySessionSnapshot.provider h).symm

theorem unseen_source (h : Unseen old e) : e.source = old.source :=
  (congrArg TerminalActivitySessionSnapshot.source h).symm

theorem expireProgress_provider (session : MutableSession) (now : ℚ) :
    (session.expireProgress now).provider = session.provider ∧
      (session.expireProgress now).sessionId = session.sessionId := by
  rw [MutableSession.expireProgress]
  split_ifs <;> exact ⟨rfl, rfl⟩

theorem expireInputQuiet_provider (session : MutableSession) (now : ℚ) :
    (session.expireInputQuiet now).provider = session.provider ∧
      (session.expireInputQuiet now).sessionId = session.sessionId := by
  rw [MutableSession.expireInputQuiet]
  split_ifs <;> exact ⟨rfl, rfl⟩

theorem expire_provider (options : ReducerOptions) (session : MutableSession) (now : ℚ) :
    (session.expire options now).provider = session.provider ∧
      (session.expire options now).sessionId = session.sessionId := by
  have hraw := expireRaw_unseen options (session.expireProgress now) now
  obtain ⟨hprogress, hid⟩ := expireProgress_provider session now
  obtain ⟨hquiet, hid'⟩ :=
    expireInputQuiet_provider ((session.expireProgress now).expireRaw options now) now
  exact ⟨hquiet.trans ((unseen_provider hraw).trans hprogress),
    hid'.trans ((unseen_sessionId hraw).trans hid)⟩

theorem expire_seen (h : ¬ Unseen session (session.expire options now)) :
    (session.expire options now).provider = none ∧ Ended (session.expire options now).source := by
  have hraw := expireRaw_unseen options (session.expireProgress now) now
  obtain ⟨hprovider, -⟩ := expire_provider options session now
  rcases expireInputQuiet_unseen ((session.expireProgress now).expireRaw options now) now with
    hquiet | ⟨hnone, hsource⟩
  · rcases expireProgress_unseen session now with hprogress | ⟨hnone, hsource⟩
    · exact absurd (hprogress.trans (hraw.trans hquiet)) h
    · refine ⟨hprovider.trans hnone, .inl ?_⟩
      exact (unseen_source hquiet).trans ((unseen_source hraw).trans hsource)
  · refine ⟨?_, .inr hsource⟩
    rw [hprovider, ← (expireProgress_provider session now).1, ← unseen_provider hraw]
    exact hnone

theorem expire_createSession (options : ReducerOptions) (id : Str) (projectId : Option Str)
    (now : ℚ) :
    (createSession id projectId now).expire options now = createSession id projectId now := rfl

theorem derive_source (options : ReducerOptions) (session : MutableSession) (now : ℚ) :
    (session.derive options now).source = session.source := rfl

theorem seen_of_own (own : Str) (hown : session.source = own)
    (hstale : own ≠ js "structured:stale") (hquiet : own ≠ js "structured:input-quiet")
    (h : Ended e.source) : stateOf (snapshotOf e) ≠ stateOf (snapshotOf session) := by
  intro heq
  have hsame : e.source = session.source :=
    congrArg TerminalActivitySessionSnapshot.source heq
  rw [hsame, hown] at h
  rcases h with h | h
  · exact hstale h
  · exact hquiet h

theorem seen_of_turns (hturns : turns options session now = true) {old : MutableSession}
    (hstatus : old.status = session.status) :
    stateOf (snapshotOf old) ≠ stateOf (snapshotOf (session.derive options now)) := by
  intro heq
  have hsame : old.status = if session.isWorking options now then .working else .idle :=
    congrArg TerminalActivitySessionSnapshot.status heq
  rw [turns, decide_eq_true_eq] at hturns
  apply hturns
  rw [← hstatus, hsame]
  cases session.isWorking options now <;> rfl

end Expired

section Steps

variable {options : ReducerOptions} {r r₁ : TerminalActivityReducer} {id : Str}
  {projectId : Option Str} {now : ℚ}

theorem put_put (r : TerminalActivityReducer) (id : Str) (a b : MutableSession) :
    (r.put id a).put id b = r.put id b := by
  simp only [TerminalActivityReducer.put, Entries.set_set]

theorem commit_moves {old session : MutableSession} {before : TerminalActivitySessionSnapshot}
    (hput : ∀ new, r₁.put id new = r.put id new) (hcount : r₁.currentRevision = r.currentRevision)
    (hold : r.get id = some old) (hid : session.sessionId = id)
    (hroom : r.currentRevision < maxSafeInteger)
    (hbefore : stateOf before = stateOf (snapshotOf old) ∨
      stateOf before ≠ stateOf (snapshotOf session)) :
    Moves options r (r₁.commitIfChanged options id session before).2 := by
  simp only [TerminalActivityReducer.commitIfChanged, sameSnapshotExceptUpdatedAt, sameSnapshot,
    decide_eq_true_eq, hput]
  split_ifs with hsame hequal
  · refine .single (.quiet hold ?_)
    exact (hbefore.resolve_right fun hne => hne hsame).symm.trans hsame
  · exact absurd (congrArg stateOf hequal) hsame
  · have hnext : r₁.nextRevision = .ok (r.currentRevision + 1) := by
      rw [TerminalActivityReducer.nextRevision, bind_ok, hcount]
      exact ⟨(), refuseIf_ok.mpr (Nat.ne_of_lt hroom), rfl⟩
    rw [hnext]
    exact .single (.publish hold hid)

theorem reach_moves (h : Followed options r) {writes : MutableSession → Bool}
    (htimely : Timely options r id projectId now (adopted · projectId) writes)
    {operate : MutableSession → TerminalActivityReducer →
      Except Thrown (Option ActivityEvent) × TerminalActivityReducer}
    (hoperate : ∀ (r₁ : TerminalActivityReducer) (old e : MutableSession),
      r₁.currentRevision < maxSafeInteger → r₁.get id = some old → e.sessionId = id →
      (Unseen old e ∨ e.provider = none ∧ Ended e.source ∧ writes e = true) →
      Moves options r₁ (operate e (r₁.put id e)).2) :
    Moves options r (r.reach options id projectId now operate).2 := by
  rw [TerminalActivityReducer.reach]
  split_ifs with hmissed
  · exact .refl
  · rw [not_or, Bool.not_eq_true] at hmissed
    obtain ⟨hlive, hreached⟩ := hmissed
    rcases hget : r.get id with _ | session
    · simp only [TerminalActivityReducer.ensure, hget, expire_createSession]
      let created := createSession id projectId now
      have hadd : Move options r (r.add created) := .add hget hlive
      have hadded : (r.add created).get id = some created := get_put_self h id created
      exact (Relation.ReflTransGen.single hadd).trans
        (hoperate (r.add created) created created htimely.1 hadded rfl (.inl rfl))
    · simp only [TerminalActivityReducer.ensure, hget, put_put]
      obtain ⟨-, hid⟩ := expire_provider options (adopted session projectId) now
      refine hoperate r session _ htimely.1 hget (hid.trans (h.named id session hget)) ?_
      rcases htimely.2 hreached session hget with hunseen | ⟨hseen, hwrites⟩
      · exact .inl hunseen
      · obtain ⟨hprovider, hsource⟩ := expire_seen hseen
        exact .inr ⟨hprovider, hsource, hwrites⟩

theorem quiet_moves {old e : MutableSession} (hold : r.get id = some old) (h : Unseen old e) :
    Moves options r (r.put id e) :=
  .single (.quiet hold h)

theorem register_moves (hheard : Heard options r (.register id projectId now)) :
    Moves options r (r.register id projectId now).2 := by
  rw [TerminalActivityReducer.register]
  split
  · exact .refl
  · split_ifs with hlive
    · exact .refl
    · split
      · next existing hget =>
        split_ifs with hmatches
        · exact quiet_moves hget (hheard existing hget hmatches)
        · exact .refl
      · next hget => exact .single (.add hget hlive)

theorem receive_seen {signal : TerminalActivitySignal} {e : MutableSession}
    (hprovider : e.provider = none) (hsource : Ended e.source)
    (hwrites : signalWrites options signal now e = true) :
    stateOf (snapshotOf e) ≠
      stateOf (snapshotOf ((e.receive options signal now).derive options now)) := by
  cases signal with
  | progress state =>
    refine seen_of_own (js "structured:progress") ?_ (by decide) (by decide) hsource
    simp only [derive_source, MutableSession.receive, MutableSession.progress]
    split_ifs <;> rfl
  | command phase exitCode =>
    refine seen_of_own (js "structured:command") ?_ (by decide) (by decide) hsource
    cases phase <;> rfl
  | notification =>
    exact seen_of_own (js "structured:notification") rfl (by decide) (by decide) hsource
  | bell => exact seen_of_own (js "structured:bell") rfl (by decide) (by decide) hsource
  | userInput => exact seen_of_own (js "structured:user-input") rfl (by decide) (by decide) hsource
  | foreground busy processName =>
    exact seen_of_own (js "structured:foreground") (if_pos hprovider) (by decide) (by decide) hsource
  | title => exact seen_of_turns hwrites rfl
  | resize =>
    let resized : MutableSession := { e with lastResizeAt := some now }
    exact seen_of_turns (show turns options resized now = true from hwrites) rfl
  | foregroundLimited =>
    rcases of_decide_eq_true hwrites with havailable | hturns
    · intro heq
      have hsame : e.foregroundObservation = .limited :=
        congrArg TerminalActivitySessionSnapshot.foregroundObservation heq
      rw [havailable] at hsame
      cases hsame
    · let limited : MutableSession := { e with foregroundObservation := .limited }
      exact seen_of_turns (show turns options limited now = true from hturns) rfl

theorem receive_sessionId (options : ReducerOptions) (signal : TerminalActivitySignal) (now : ℚ)
    (e : MutableSession) : (e.receive options signal now).sessionId = e.sessionId := by
  cases signal with
  | progress state =>
    simp only [MutableSession.receive, MutableSession.progress]
    split_ifs <;> rfl
  | command phase exitCode => cases phase <;> rfl
  | _ => rfl

theorem updateFallbackEvidence_unseen (options : ReducerOptions) {signal : TerminalActivitySignal}
    (now : ℚ) (e : MutableSession) (h : signal.isForeground = false) :
    Unseen e (e.updateFallbackEvidence options signal now) := by
  cases signal with
  | foregroundLimited => cases h
  | foreground busy processName => cases h
  | _ => rfl

theorem applySignal_moves (h : Followed options r) {signal : TerminalActivitySignal}
    (hheard : Heard options r (.applySignal id signal projectId now)) :
    Moves options r (r.applySignal options id signal projectId now).2 := by
  rw [TerminalActivityReducer.applySignal]
  split
  · exact .refl
  · refine reach_moves h hheard fun r₁ old e hroom hold hid hknown => ?_
    dsimp only
    split_ifs with hprovided hnone
    · have hsome : e.provider ≠ none := fun hnone => by simp [hnone] at hprovided
      have hunseen := hknown.resolve_right fun hended => hsome hended.1
      rw [put_put]
      exact quiet_moves hold
        (hunseen.trans (updateFallbackEvidence_unseen options now e hprovided.2))
    · have hsame : ((e.receive options signal now).derive options now).sessionId = id :=
        (receive_sessionId options signal now e).trans hid
      refine commit_moves (put_put r₁ id e) rfl hold hsame hroom ?_
      rcases hknown with hunseen | ⟨hprovider, hsource, hwrites⟩
      · exact .inl hunseen.symm
      · exact .inr (receive_seen hprovider hsource hwrites)
    · have hsame := (receive_sessionId options signal now e).trans hid
      refine commit_moves (put_put r₁ id e) rfl hold hsame hroom ?_
      exact .inl (hknown.resolve_right fun hended => hnone hended.1).symm

theorem applyRawOutput_moves (h : Followed options r)
    (hheard : Heard options r (.applyRawOutput id projectId now)) :
    Moves options r (r.applyRawOutput options id projectId now).2 := by
  rw [TerminalActivityReducer.applyRawOutput]
  split
  · exact .refl
  · refine reach_moves h hheard fun r₁ old e hroom hold hid hknown => ?_
    split_ifs with hclaimed
    · refine quiet_moves hold (hknown.resolve_right fun hended => ?_)
      obtain ⟨hprovider, -, hwrites⟩ := hended
      rw [hprovider] at hclaimed
      rw [rawWrites, Bool.and_eq_true, Bool.not_eq_true'] at hwrites
      rcases hclaimed with hclaimed | hclaimed
      · cases hclaimed
      · rw [hwrites.1] at hclaimed
        cases hclaimed
    · have hsame : ((e.rawOutput now).derive options now).sessionId = id := by
        rw [MutableSession.rawOutput]
        split_ifs <;> exact hid
      refine commit_moves (put_put r₁ id e) rfl hold hsame hroom ?_
      rcases hknown with hunseen | ⟨-, hsource, hwrites⟩
      · exact .inl hunseen.symm
      · refine .inr ?_
        rw [MutableSession.rawOutput]
        split_ifs with hwindow
        · exact seen_of_own (js "raw:output") rfl (by decide) (by decide) hsource
        · refine seen_of_turns ?_ rfl
          rw [rawWrites, Bool.and_eq_true, Bool.or_eq_true, Bool.and_eq_true, Bool.not_eq_true',
            Bool.not_eq_true', Bool.not_eq_true'] at hwrites
          exact hwrites.2.resolve_left hwindow

theorem applyProviderActivity_moves (h : Followed options r) {update : ProviderActivityUpdate}
    (hheard : Heard options r (.applyProviderActivity id update projectId now)) :
    Moves options r (r.applyProviderActivity options id update projectId now).2 := by
  rw [TerminalActivityReducer.applyProviderActivity]
  split
  · exact .refl
  · have htimely : Timely options r id projectId now (adopted · projectId) fun session =>
        !session.fences update := hheard
    refine reach_moves h htimely fun r₁ old e hroom hold hid hknown => ?_
    split_ifs with hfenced
    · refine quiet_moves hold (hknown.resolve_right fun hended => ?_)
      rw [hfenced] at hended
      cases hended.2.2
    · refine commit_moves (put_put r₁ id e) rfl hold hid hroom ?_
      rcases hknown with hunseen | ⟨hprovider, -, -⟩
      · exact .inl hunseen.symm
      · refine .inr fun heq => ?_
        have hsame : e.provider = some update.provider :=
          congrArg TerminalActivitySessionSnapshot.provider heq
        rw [hprovider] at hsame
        cases hsame

theorem acknowledge_moves (h : Followed options r)
    (hheard : Heard options r (.acknowledge id projectId now)) :
    Moves options r (r.acknowledge options id projectId now).2 := by
  rw [TerminalActivityReducer.acknowledge]
  split
  · exact .refl
  · split
    · exact .refl
    · next session hget =>
      obtain ⟨hprovider, hid⟩ := expire_provider options session now
      have hown : (session.expire options now).sessionId = id := hid.trans (h.named id session hget)
      dsimp only
      split_ifs with hmissed hseen hnone
      · exact .refl
      all_goals
        rw [not_or, Bool.not_eq_true] at hmissed
        have hknown : Unseen session (session.expire options now) ∨
            ¬ Unseen session (session.expire options now) ∧
              (!isSeen (session.expire options now)) = true :=
          hheard.2 hmissed.2 session hget
      · refine quiet_moves hget (hknown.resolve_right fun hended => ?_)
        have hwrites := hended.2
        rw [isSeen, hseen.1, hseen.2.1, hseen.2.2] at hwrites
        cases hwrites
      · refine commit_moves (put_put r id _) rfl hget hown hheard.1 ?_
        rcases hknown with hunseen | ⟨hended, -⟩
        · exact .inl hunseen.symm
        · exact .inr (seen_of_own (js "structured:acknowledge") (if_pos hnone) (by decide)
            (by decide) (expire_seen hended).2)
      · refine commit_moves (put_put r id _) rfl hget hown hheard.1 (.inl ?_)
        exact (hknown.resolve_right fun hended => hnone (expire_seen hended.1).1).symm

theorem markTerminalExit_moves (hroom : r.currentRevision < maxSafeInteger) :
    Moves options r (r.markTerminalExit options id projectId).2 := by
  rw [TerminalActivityReducer.markTerminalExit]
  split
  · exact .refl
  · split_ifs
    · exact .refl
    · exact .refl
    · split
      · next hget => exact .single (.fence hget)
      · next session hget =>
        have hnext : r.nextRevision = .ok (r.currentRevision + 1) := by
          rw [TerminalActivityReducer.nextRevision, bind_ok]
          exact ⟨(), refuseIf_ok.mpr (Nat.ne_of_lt hroom), rfl⟩
        rw [hnext]
        exact .single (.remove hget)

theorem rehome_moves (h : Followed options r) (hroom : r.currentRevision < maxSafeInteger)
    {newProject : Str} : Moves options r (r.rehome options id newProject now).2 := by
  rw [TerminalActivityReducer.rehome]
  split
  · exact .refl
  · split
    · exact .refl
    · next session hget =>
      split_ifs
      · exact .refl
      · exact commit_moves (fun _ => rfl) rfl hget (h.named id session hget) hroom (.inl rfl)

theorem tickSession_moves (h : Followed options r) (hroom : r.currentRevision < maxSafeInteger) :
    Moves options r (r.tickSession options id now).2 := by
  rw [TerminalActivityReducer.tickSession]
  split
  · exact .refl
  · next session hget =>
    have hid := (expire_provider options session now).2.trans (h.named id session hget)
    dsimp only
    split_ifs
    · exact .refl
    · exact commit_moves (fun _ => rfl) rfl hget hid hroom (.inl rfl)
    · exact commit_moves (fun _ => rfl) rfl hget hid hroom (.inl rfl)

theorem commit_revision (options : ReducerOptions) (r : TerminalActivityReducer) (id : Str)
    (session : MutableSession) (before : TerminalActivitySessionSnapshot) :
    (r.commitIfChanged options id session before).2.currentRevision ≤ r.currentRevision + 1 := by
  simp only [TerminalActivityReducer.commitIfChanged]
  split_ifs
  · exact Nat.le_succ _
  · exact Nat.le_succ _
  · split
    · exact Nat.le_succ _
    · next revision hnext =>
      rw [TerminalActivityReducer.nextRevision, bind_ok] at hnext
      obtain ⟨_, -, hrevision⟩ := hnext
      exact Nat.le_of_eq (pure_ok.mp hrevision).symm

theorem tickSession_revision (options : ReducerOptions) (r : TerminalActivityReducer) (id : Str)
    (now : ℚ) : (r.tickSession options id now).2.currentRevision ≤ r.currentRevision + 1 := by
  rw [TerminalActivityReducer.tickSession]
  split
  · exact Nat.le_succ _
  · split_ifs
    · exact Nat.le_succ _
    · exact commit_revision options r id _ _

theorem tickAll_moves (h : Followed options r) (ids : List Str)
    (hroom : r.currentRevision + ids.length ≤ maxSafeInteger) :
    Moves options r (r.tickAll options now ids).2 := by
  induction ids generalizing r with
  | nil => exact .refl
  | cons id ids ih =>
    rw [List.length_cons] at hroom
    have hfirst : Moves options r (r.tickSession options id now).2 :=
      tickSession_moves h (by omega)
    have hrevision := tickSession_revision options r id now
    rw [TerminalActivityReducer.tickAll]
    split
    · next error r' heq =>
      rw [heq] at hfirst
      exact hfirst
    · next event r' heq =>
      rw [heq] at hfirst hrevision
      dsimp only at hfirst hrevision
      exact hfirst.trans (ih (h.moves hfirst) (by omega))

/-- An operation that readers hear is a sequence of moves. -/
theorem step_moves (h : Followed options r) {input : ActivityInput} (hheard : Heard options r input) :
    Moves options r (r.step options input) := by
  cases input with
  | register sessionId projectId now => exact register_moves hheard
  | applySignal sessionId signal projectId now => exact applySignal_moves h hheard
  | applyRawOutput sessionId projectId now => exact applyRawOutput_moves h hheard
  | applyProviderActivity sessionId update projectId now => exact applyProviderActivity_moves h hheard
  | acknowledge sessionId projectId now => exact acknowledge_moves h hheard
  | markTerminalExit sessionId projectId => exact markTerminalExit_moves hheard
  | tick now =>
    have hlength : (Entries.keys r.sessionsById).length = r.sessionsById.length :=
      List.length_map _
    exact tickAll_moves h _ (hlength ▸ hheard)
  | rehome sessionId projectId now => exact rehome_moves h hheard

theorem run_moves (h : Followed options r) {inputs : List ActivityInput}
    (hheard : Runs.Meets (TerminalActivityReducer.step options) (Heard options) r inputs) :
    Moves options r (Runs.after (TerminalActivityReducer.step options) r inputs) := by
  induction inputs generalizing r with
  | nil => exact .refl
  | cons input inputs ih =>
    have hfirst := step_moves h hheard.1
    exact hfirst.trans (ih (h.moves hfirst) hheard.2)

end Steps

/-- Readers know every live session as it is: from the last event or its registration, and from a
snapshot and the events replayed since. -/
theorem activity_runs (options : ReducerOptions) (inputs later : List ActivityInput)
    (h : Runs.Meets (TerminalActivityReducer.step options) (Heard options) (.initial options)
      (inputs ++ later)) :
    let r := Runs.after (TerminalActivityReducer.step options) (.initial options) inputs
    let r' := Runs.after (TerminalActivityReducer.step options) r later
    (∀ (id : Str) (session : MutableSession), r.get id = some session →
      ∃ snapshot, lastSnapshot r.log id = some snapshot ∧
        stateOf snapshot = stateOf (snapshotOf session)) ∧
    ∀ events, r'.replay r.currentRevision = .ok (.events events) →
      (∀ (id : Str) (session : MutableSession), r'.get id = some session →
        (∃ snapshot, (events.foldl follow r.snapshot.sessions)[id]? = some snapshot ∧
          stateOf snapshot = stateOf (snapshotOf session)) ∨
        (events.foldl follow r.snapshot.sessions)[id]? = none ∧ r.get id = none ∧
          ∀ event ∈ events, event.sessionId ≠ id) ∧
      ∀ id, r'.get id = none → (events.foldl follow r.snapshot.sessions)[id]? = none := by
  obtain ⟨hinputs, hlater⟩ := Runs.meets_append.mp h
  have hstart := (Followed.initial options).moves (run_moves (.initial options) hinputs)
  have hmoves := run_moves hstart hlater
  refine ⟨hstart.current, fun events hreplay => ?_⟩
  obtain ⟨since, hshows⟩ := Shows.moves hstart hmoves
  have hevents := replay_since hstart (hstart.moves hmoves) hshows.history hreplay
  rw [hevents]
  exact ⟨hshows.live, hshows.ended⟩

def reducerOptions : ReducerOptions :=
  ⟨1024, 1000, 15000, 0, by decide, by decide, by decide, by decide⟩

/-- A finished progress, input by the user, and a tick once the input has been quiet. -/
def quietThenTick : List ActivityInput :=
  [.register (js "s1") none 0, .applySignal (js "s1") (.progress 0) none 0,
    .applySignal (js "s1") .userInput none 1000, .tick 3500, .applyRawOutput (js "s1") none 3600]

theorem quiet_then_tick_runs :
    let r := Runs.after (TerminalActivityReducer.step reducerOptions) (.initial reducerOptions)
      quietThenTick
    let r' := Runs.after (TerminalActivityReducer.step reducerOptions) r []
    (∀ (id : Str) (session : MutableSession), r.get id = some session →
      ∃ snapshot, lastSnapshot r.log id = some snapshot ∧
        stateOf snapshot = stateOf (snapshotOf session)) ∧
    ∀ events, r'.replay r.currentRevision = .ok (.events events) →
      (∀ (id : Str) (session : MutableSession), r'.get id = some session →
        (∃ snapshot, (events.foldl follow r.snapshot.sessions)[id]? = some snapshot ∧
          stateOf snapshot = stateOf (snapshotOf session)) ∨
        (events.foldl follow r.snapshot.sessions)[id]? = none ∧ r.get id = none ∧
          ∀ event ∈ events, event.sessionId ≠ id) ∧
      ∀ id, r'.get id = none → (events.foldl follow r.snapshot.sessions)[id]? = none :=
  activity_runs reducerOptions quietThenTick [] (by decide +kernel)

def quietThenOutput : List ActivityInput :=
  [.register (js "s1") none 0, .applySignal (js "s1") (.progress 0) none 0,
    .applySignal (js "s1") .userInput none 1000, .applyRawOutput (js "s1") none 3500, .tick 3600]

theorem quiet_then_output_unheard :
    let r := Runs.after (TerminalActivityReducer.step reducerOptions) (.initial reducerOptions)
      quietThenOutput
    ¬ ∀ (id : Str) (session : MutableSession), r.get id = some session →
      ∃ snapshot, lastSnapshot r.log id = some snapshot ∧
        stateOf snapshot = stateOf (snapshotOf session) := by
  intro r hheard
  have hacknowledged : (r.get (js "s1")).map MutableSession.acknowledged = some false ∧
      (lastSnapshot r.log (js "s1")).map TerminalActivitySessionSnapshot.acknowledged =
        some true := by
    decide +kernel
  obtain ⟨hserver, hreader⟩ := hacknowledged
  obtain ⟨session, hsession, hfalse⟩ := Option.map_eq_some_iff.mp hserver
  obtain ⟨snapshot, hsnapshot, hsame⟩ := hheard _ session hsession
  rw [hsnapshot, Option.map_some, Option.some.injEq] at hreader
  have heq : snapshot.acknowledged = session.acknowledged :=
    congrArg TerminalActivitySessionSnapshot.acknowledged hsame
  rw [hreader, hfalse] at heq
  cases heq

end Terminay.Activity
