import Terminay.Migration.Stages

/-!
# Runs, rollbacks and recoveries

Over any calls and any failures a complete migration has every import committed and the commit is
never crossed twice, as long as no run begins from a marker that names steps whose staged imports
are gone.
-/

namespace Terminay.Migration
open Script Fallible MigrationRunner

variable {δ : Type}

section Calls

variable (r : MigrationRunner) (source : LegacyMigrationSource δ)

def Intact (w : World δ) : Prop :=
  ∀ m ∈ w.marker, ¬ m.Crossed → ∀ step ∈ m.completedSteps, ∀ item ∈ importsOf source step,
    item ∈ w.staged

instance [DecidableEq δ] (w : World δ) : Decidable (Intact source w) :=
  inferInstanceAs (Decidable (∀ m ∈ w.marker, ¬ m.Crossed → ∀ step ∈ m.completedSteps,
    ∀ item ∈ importsOf source step, item ∈ w.staged))

def ImportedSince (before : List (Request δ × Bool)) (done : List MigrationStep) (w : World δ) : Prop :=
  ∀ step ∉ done, ∀ item ∈ importsOf source step,
    (Request.importInto item, true) ∈ w.log.drop before.length

variable {r} {source} {p : Process δ} {m : MigrationMarker} {w : World δ}
  {before : List (Request δ × Bool)} {done : List MigrationStep}

theorem mem_steps (step : MigrationStep) : step ∈ steps := by
  cases step <;> decide

theorem Kept.finish (h : Kept r source w) (hown : Own r source m) (hbacked : m.backupId.isSome = true)
    (hcommitted : Committed source m w) (times : RunTimes) (took : Bool) :
    Kept r source (w.invoke (.saveMarker (completion m times)) took) := by
  refine h.mark (hown.carried rfl rfl) hbacked (fun _ => .inr rfl) fun _ => ?_
  exact ⟨hcommitted.commits, .inr rfl, .inr hcommitted.held⟩

theorem ends_migrate (h : Going r source before done m p.world) (times : RunTimes) :
    Ends (migrate r source m times) p
      (fun m' q => Kept r source q.world ∧ q.world.marker = some m' ∧ m'.status = .complete ∧
        ImportedSince source before done q.world)
      fun q => Kept r source q.world := by
  have hfault : ∀ t : Process δ, Halted r source t.world → Kept r source t.world := fun _ ht => ht.kept
  refine (ends_backUp h).bind hfault fun m₁ p₁ h₁ => ?_
  refine (ends_capture h₁.1 h₁.2.1).bind hfault fun m₂ p₂ h₂ => ?_
  refine (ends_setUp h₂.1 h₂.2.1).bind hfault fun _ p₃ h₃ => ?_
  refine (ends_importSteps h₃.1 h₂.2.1 h₃.2).bind hfault fun m₄ p₄ h₄ => ?_
  obtain ⟨hgoing, hbacked, hsteps⟩ := h₄
  refine (ends_commit hgoing hbacked fun step => hsteps step (.inl (mem_steps step))).bind
    (fun _ ht => ht) fun m₅ p₅ h₅ => ?_
  obtain ⟨hkept, hown, hbacked, hcommitted, hlonger, himported⟩ := h₅
  refine ends_bind.mpr (ends_request (fun answers => ?_) fun took answers => ?_)
  · refine ⟨hkept.finish hown hbacked hcommitted times true, rfl, rfl, fun step hstep item hitem => ?_⟩
    rw [drop_invoke hlonger]
    exact List.mem_append_left _ (himported step hstep item hitem)
  · exact hkept.finish hown hbacked hcommitted times took

theorem ends_admit {α : Type} {next : Work δ α} {Q : α → Process δ → Prop} {E : Process δ → Prop}
    (hrefused : ¬ r.Admits source → E p) (hnext : r.Admits source → Ends next p Q E) :
    Ends (do
      validateSource source
      r.assertCompatibleSource
      refuseWhen (∃ expected ∈ r.expectedServerId, ∃ id ∈ source.serverId, id ≠ expected)
        .identityCollision "legacy source belongs to a different server identity"
      next) p Q E := by
  refine ends_bind.mpr (ends_refuseWhen (fun hinvalid => ?_) fun hvalid => ends_bind.mpr ?_)
  · exact hrefused fun hadmits => hadmits.valid hinvalid
  · unfold assertCompatibleSource
    rcases hcompatible : r.incompatible with _ | message
    · refine ends_bind.mpr (ends_refuseWhen (fun hother => ?_) fun hidentity => ?_)
      · exact hrefused fun hadmits => hadmits.identity hother
      · exact hnext ⟨hvalid, hcompatible, hidentity⟩
    · refine hrefused fun hadmits => ?_
      rw [hadmits.compatible] at hcompatible
      cases hcompatible

theorem Kept.load (h : Kept r source w) (took : Bool) : Kept r source (w.invoke .loadMarker took) := by
  have hsame : (w.invoke .loadMarker took).marker = w.marker := by cases took <;> rfl
  have hcommitted : (w.invoke .loadMarker took).committed = w.committed := by cases took <;> rfl
  refine h.invoke hsame (fun _ => ⟨nofun, nofun⟩) nofun fun _ _ _ => .inr fun item hitem => ?_
  rw [hcommitted]
  exact hitem

theorem ends_loadMarker {Q : Option MigrationMarker → Process δ → Prop} (h : Kept r source p.world)
    (hQ : ∀ answers, Q p.world.marker ⟨p.world.invoke .loadMarker true, answers⟩) :
    Ends loadMarker p Q fun q => Kept r source q.world := by
  refine ends_bind.mpr (ends_request (fun answers => ?_) fun took answers => h.load took)
  exact ends_bind.mpr (hQ answers)

theorem going_begin (h : Kept r source w) (hintact : Intact source w) (hadmits : r.Admits source)
    (hresumable : ¬ ∃ m ∈ w.marker, m.Crossed) (hunfinished : ∀ m ∈ w.marker, m.status ≠ .complete)
    (startedAt : ℚ) :
    Going r source w.log (w.marker.elim [] MigrationMarker.completedSteps)
      (w.marker.getD (r.freshMarker startedAt)) (w.invoke .loadMarker true) where
  kept := h.load true
  uncommitted hcommits := by
    have hsame : Commits (w.log ++ [(Request.loadMarker, true)]) ↔ Commits w.log :=
      commits_invoke nofun
    exact hresumable (h.crossed (hsame.mp hcommits))
  unfinished := hunfinished
  own := by
    rcases hmarker : w.marker with _ | m
    · exact ⟨rfl, rfl, hadmits⟩
    · exact (h.marked m hmarker).1
  status := by
    rcases hmarker : w.marker with _ | m
    · exact nofun
    · exact hunfinished m hmarker
  staged := by
    rcases hmarker : w.marker with _ | m
    · exact nofun
    · exact hintact m hmarker fun hcross => hresumable ⟨m, hmarker, hcross⟩
  longer := by
    rw [invoke_log, List.length_append]
    omega
  imported step hstep hundone := by
    rcases hmarker : w.marker with _ | m
    · rw [hmarker] at hstep
      cases hstep
    · rw [hmarker] at hstep hundone
      exact absurd hstep hundone

theorem ends_run (h : Kept r source p.world) (hintact : Intact source p.world) (times : RunTimes) :
    Ends (MigrationRunner.run r source times) p
      (fun result q => Kept r source q.world ∧ ∃ m resumed, result = .ran m resumed ∧
        q.world.marker = some m ∧ m.status = .complete ∧
        ∀ m₀ ∈ p.world.marker, m₀.status ≠ .complete →
          ImportedSince source p.world.log m₀.completedSteps q.world)
      fun q => Kept r source q.world := by
  unfold MigrationRunner.run
  refine ends_admit (fun _ => h) fun hadmits => ends_bind.mpr (ends_loadMarker h fun answers => ?_)
  have hloaded := h.load true
  rcases hfilter : p.world.marker.filter (fun m => decide (m.status = .complete)) with _ | stored
  · have hunfinished : ∀ m ∈ p.world.marker, m.status ≠ .complete := fun m hm hstatus =>
      Option.filter_eq_none_iff.mp hfilter m hm (decide_eq_true hstatus)
    dsimp only
    rw [hfilter]
    dsimp only
    unfold assertResumable assertOwn
    refine ends_bind.mpr (ends_bind.mpr (ends_refuseWhen (fun _ => hloaded) fun _ =>
      ends_refuseWhen (fun _ => hloaded) fun hresumable => ?_))
    refine ends_bind.mpr (ends_bind.mpr (ends_refuseWhen (fun _ => hloaded) fun _ =>
      ends_refuseWhen (fun _ => hloaded) fun _ => ?_))
    have hgoing := going_begin h hintact hadmits hresumable hunfinished times.startedAt
    refine (ends_migrate hgoing times).bind (fun _ ht => ht) fun m q hq => ?_
    obtain ⟨hkept, hmarker, hstatus, himported⟩ := hq
    refine ⟨hkept, m, _, rfl, hmarker, hstatus, fun m₀ hm₀ _ => ?_⟩
    rw [Option.mem_def.mp hm₀] at himported
    exact himported
  · obtain ⟨hmarker, hstatus⟩ := Option.filter_eq_some_iff.mp hfilter
    dsimp only
    rw [hfilter]
    refine ⟨hloaded, stored, true, rfl, hmarker, of_decide_eq_true hstatus, fun m₀ hm₀ hnot => ?_⟩
    rw [Option.mem_def.mp hm₀] at hmarker
    cases hmarker
    exact absurd (of_decide_eq_true hstatus) hnot

structure Reversible (r : MigrationRunner) (source : LegacyMigrationSource δ) (m : MigrationMarker)
    (w : World δ) : Prop extends Halted r source w where
  marker : w.marker = some m
  status : m.status ≠ .complete

theorem Reversible.invoke (h : Reversible r source m w) {call : Request δ}
    (hcall : call ≠ .commitServerOnlyMutations) (hsave : (w.effect call).marker = w.marker)
    (took : Bool) : Reversible r source m (w.invoke call took) := by
  have hsame : (w.invoke call took).marker = w.marker := by
    cases took with
    | false => rfl
    | true => exact hsave
  have hnever : ∀ stored ∈ w.marker, stored.status ≠ .complete := by
    rw [h.marker]
    rintro _ ⟨⟩
    exact h.status
  refine ⟨⟨?_, fun hcommits => h.uncommitted ((commits_invoke hcall).mp hcommits)⟩,
    hsame.trans h.marker, h.status⟩
  exact h.kept.invoke hsame (fun hcommits => absurd hcommits h.uncommitted)
    (fun hcommit => absurd hcommit hcall)
    fun stored hstored hcomplete => absurd hcomplete (hnever stored hstored)

theorem ends_reversible (call : Request δ) (h : Reversible r source m p.world)
    (hcall : call ≠ .commitServerOnlyMutations)
    (hsave : (p.world.effect call).marker = p.world.marker) :
    Ends (request call) p (fun _ q => Reversible r source m q.world)
      fun q => Kept r source q.world :=
  ends_request (fun _ => h.invoke hcall hsave true) fun took _ => (h.invoke hcall hsave took).kept

theorem ends_backed {existing : Option MigrationMarker} {code : MigrationErrorCode}
    {Q : MigrationMarker × ℕ → Process δ → Prop} {E : Process δ → Prop} (hrefused : E p)
    (hQ : ∀ m ∈ existing, ∀ backupId ∈ m.backupId, Q (m, backupId) p) :
    Ends (backed existing code) p Q E := by
  unfold backed
  rcases existing with _ | m
  · exact hrefused
  · rcases hbackup : m.backupId with _ | backupId
    · simp only [hbackup]
      exact hrefused
    · simp only [hbackup]
      exact hQ m rfl backupId hbackup

structure Reset (m : MigrationMarker) : Prop where
  status : m.status = .pending
  uncrossed : ¬ m.Crossed
  completedSteps : m.completedSteps = []
  rollbackState : m.rollbackState = some .restored

theorem ends_restore {backupId : ℕ} (h : Reversible r source m p.world) (rollbackAt : ℚ) :
    Ends (r.restore m backupId rollbackAt) p
      (fun result q => Kept r source q.world ∧ ∃ m' electron, result = .rolledBack m' electron ∧
        q.world.marker = some m' ∧ Reset m')
      fun q => Kept r source q.world := by
  have hown : Own r source m := (h.kept.marked m h.marker).1
  have hbacked := (h.kept.marked m h.marker).2
  unfold restore
  refine ends_bind.mpr (ends_refuseWhen (fun _ => h.kept) fun _ => ?_)
  refine ends_bind.mpr (ends_refuseWhen (fun _ => h.kept) fun _ => ?_)
  refine (ends_reversible .rollbackServerOnlyMutations h nofun rfl).bind (fun _ ht => ht) fun _ p₁ h₁ => ?_
  refine (ends_reversible (.restoreBackup backupId) h₁ nofun rfl).bind (fun _ ht => ht) fun _ p₂ h₂ => ?_
  have helectron : Ends (restoreElectron m.electronStateBackupId) p₂
      (fun _ q => Reversible r source m q.world) fun q => Kept r source q.world := by
    unfold restoreElectron
    rcases m.electronStateBackupId with _ | electron
    · exact h₂
    · exact ends_reversible (.restoreElectronState electron) h₂ nofun rfl
  refine helectron.bind (fun _ ht => ht) fun _ p₃ h₃ => ?_
  have hsave : ∀ took, Kept r source (p₃.world.invoke (.saveMarker (resetMarker m rollbackAt)) took) :=
    fun took => h₃.kept.save (hown.carried rfl rfl) hbacked
      (fun hcommits => absurd hcommits h₃.uncommitted) (by exact nofun)
  refine ends_bind.mpr (ends_request (fun answers => ?_) fun took answers => hsave took)
  refine ⟨hsave true, _, _, rfl, rfl, rfl, ?_, rfl, rfl⟩
  rintro (hcross | hcross)
  · cases hcross
  · cases hcross

theorem ends_rollback (h : Kept r source p.world) (rollbackAt : ℚ) :
    Ends (r.rollback rollbackAt) p
      (fun result q => Kept r source q.world ∧ ∃ m electron, result = .rolledBack m electron ∧
        q.world.marker = some m ∧ Reset m)
      fun q => Kept r source q.world := by
  unfold rollback
  refine ends_bind.mpr (ends_loadMarker h fun answers => ends_bind.mpr ?_)
  have hloaded := h.load true
  refine ends_backed hloaded fun m hm backupId hbackup => ends_ite.mpr ⟨fun hpast => ?_, fun hopen => ?_⟩
  · have hmarked := h.marked m hm
    have hsave : ∀ took, Kept r source ((p.world.invoke .loadMarker true).invoke
        (.saveMarker { m with rollbackState := some .recoveryRequired }) took) := by
      intro took
      refine hloaded.mark (hmarked.1.carried rfl rfl) hmarked.2 (fun hcommits => ?_) fun hstatus => ?_
      · obtain ⟨stored, hstored, hcross⟩ := hloaded.crossed hcommits
        have hsame : stored = m := Option.mem_unique hstored hm
        rw [hsame] at hcross
        exact hcross
      · exact hloaded.complete m hm hstatus
    exact ends_bind.mpr (ends_request (fun answers => hsave true) fun took answers => hsave took)
  · have huncrossed : ¬ m.Crossed := fun hcross => hopen (.inl hcross)
    have hreversible : Reversible r source m (p.world.invoke .loadMarker true) := by
      refine ⟨⟨hloaded, fun hcommits => ?_⟩, hm, fun hstatus => ?_⟩
      · obtain ⟨stored, hstored, hcross⟩ := hloaded.crossed hcommits
        exact huncrossed (Option.mem_unique hstored hm ▸ hcross)
      · exact huncrossed (h.complete m hm hstatus).2.1
    exact ends_restore hreversible rollbackAt

theorem ends_recoverBackup (h : Kept r source p.world) (backupRecoveryAt : ℚ) :
    Ends (r.recoverBackup backupRecoveryAt) p
      (fun result q => Kept r source q.world ∧ ∃ m electron, result = .recovered m electron)
      fun q => Kept r source q.world := by
  unfold recoverBackup
  refine ends_bind.mpr (ends_loadMarker h fun answers => ends_bind.mpr ?_)
  have hloaded := h.load true
  refine ends_backed hloaded fun m hm backupId hbackup => ?_
  refine ends_bind.mpr (ends_refuseWhen (fun _ => hloaded) fun hcrossed => ?_)
  refine ends_bind.mpr (ends_refuseWhen (fun _ => hloaded) fun _ => ?_)
  have hcross : m.Crossed := not_not.mp hcrossed
  have hmarked := h.marked m hm
  have hrestore : ∀ took, Kept r source ((p.world.invoke .loadMarker true).invoke
      (.restoreBackup backupId) took) := by
    intro took
    have hsame : ((p.world.invoke .loadMarker true).invoke (.restoreBackup backupId) took).marker =
        (p.world.invoke .loadMarker true).marker := by cases took <;> rfl
    refine hloaded.invoke hsame (fun _ => ⟨nofun, nofun⟩) nofun fun stored hstored hstatus => ?_
    cases took with
    | false => exact .inr fun _ hitem => hitem
    | true =>
      have hcommits := (hloaded.complete stored hstored hstatus).1
      exact .inl ⟨_, _, rfl, hcommits, backupId, List.mem_cons_self⟩
  refine ends_bind.mpr (ends_request (fun answers => ?_) fun took answers => hrestore took)
  have hsave : ∀ took, Kept r source (((p.world.invoke .loadMarker true).invoke
      (.restoreBackup backupId) true).invoke (.saveMarker (recoveredMarker m backupRecoveryAt)) took) :=
    fun took => (hrestore true).save (hmarked.1.carried rfl rfl) hmarked.2 (fun _ => .inl rfl)
      (by exact nofun)
  refine ends_bind.mpr (ends_request (fun answers => ?_) fun took answers => hsave took)
  exact ⟨hsave true, _, _, rfl⟩

end Calls

section Faultless

variable {α β : Type}

/-- The action answers whenever no call of the backend fails. -/
def Smooth (x : Work δ α) : Prop :=
  ∀ p : Process δ, p.answers = [] → Ends x p (fun _ q => q.answers = []) fun _ => False

theorem smooth_request (call : Request δ) : Smooth (request call) := by
  intro p hp
  unfold Ends request
  rw [hp]

theorem smooth_pure (a : α) : Smooth (pure a : Work δ α) := fun _ hp => hp

theorem smooth_get : Smooth (get : Work δ (Process δ)) := fun _ hp => hp

theorem Smooth.bind {x : Work δ α} {f : α → Work δ β} (hx : Smooth x) (hf : ∀ a, Smooth (f a)) :
    Smooth (x >>= f) := fun p hp => (hx p hp).bind (fun _ h => h) fun a q hq => hf a q hq

theorem Smooth.rescue {x : Work δ α} {handler : Fault → Work δ α} (hx : Smooth x) :
    Smooth (Fallible.rescue x handler) := fun p hp => (hx p hp).rescue fun _ _ h => h.elim

theorem smooth_ite {c : Prop} [Decidable c] {x y : Work δ α} (hx : Smooth x) (hy : Smooth y) :
    Smooth (if c then x else y) := fun p hp => ends_ite.mpr ⟨fun _ => hx p hp, fun _ => hy p hp⟩

theorem smooth_backUp (m : MigrationMarker) : Smooth (backUp m : Work δ MigrationMarker) := by
  refine smooth_ite ?_ (smooth_ite ?_ (smooth_pure m))
  · refine Smooth.bind ?_ fun _ => (smooth_request _).bind fun _ => smooth_pure _
    exact smooth_get.bind fun _ => (smooth_request _).bind fun _ => smooth_pure _
  · exact (smooth_request _).bind fun _ => smooth_pure _

theorem smooth_capture (r : MigrationRunner) (m : MigrationMarker) :
    Smooth (capture r m : Work δ MigrationMarker) := by
  refine smooth_ite ?_ (smooth_pure m)
  refine Smooth.bind ?_ fun _ => (smooth_request _).bind fun _ => smooth_pure _
  exact smooth_get.bind fun _ => (smooth_request _).bind fun _ => smooth_pure _

theorem smooth_requestAll (calls : List (Request δ)) : Smooth (requestAll calls) := by
  induction calls with
  | nil => exact smooth_pure ()
  | cons call calls ih => exact (smooth_request call).bind fun _ => ih

theorem smooth_importSteps (source : LegacyMigrationSource δ) (todo : List MigrationStep)
    (m : MigrationMarker) : Smooth (importSteps source todo m) := by
  induction todo generalizing m with
  | nil => exact smooth_pure m
  | cons step todo ih =>
    rw [importSteps]
    refine smooth_ite (ih m) ((Smooth.rescue (smooth_requestAll _)).bind fun _ => ?_)
    exact (smooth_request _).bind fun _ => ih _

theorem smooth_migrate (r : MigrationRunner) (source : LegacyMigrationSource δ) (m : MigrationMarker)
    (times : RunTimes) : Smooth (migrate r source m times) := by
  refine (smooth_backUp m).bind fun m => (smooth_capture r m).bind fun m => ?_
  refine (Smooth.rescue (smooth_request _)).bind fun _ => (smooth_importSteps source steps m).bind
    fun m => ?_
  refine Smooth.bind ?_ fun m => (smooth_request _).bind fun _ => smooth_pure _
  refine (smooth_request _).bind fun _ => ?_
  exact (Smooth.rescue (smooth_request _)).bind fun _ => smooth_pure _

theorem run_answers {r : MigrationRunner} {source : LegacyMigrationSource δ} {w : World δ}
    {m : MigrationMarker} (h : Kept r source w) (hmarker : w.marker = some m) (hreset : Reset m)
    (times : RunTimes) :
    Ends (MigrationRunner.run r source times) ⟨w, []⟩ (fun result _ => ∃ m', result = .ran m' true)
      fun _ => False := by
  have hown := (h.marked m hmarker).1
  unfold MigrationRunner.run
  refine ends_admit (fun hnot => hnot hown.admitted) fun _ => ?_
  have hload : Ends (loadMarker : Work δ (Option MigrationMarker)) ⟨w, []⟩
      (fun existing q => existing = some m ∧ q.answers = []) fun _ => False := ⟨hmarker, rfl⟩
  refine hload.bind (fun _ h => h) fun existing q hq => ?_
  obtain ⟨rfl, hanswers⟩ := hq
  have hrunning : (some m).filter (fun m => decide (m.status = .complete)) = none := by
    rw [Option.filter_eq_none_iff]
    rintro _ ⟨⟩
    rw [hreset.status]
    decide
  rw [hrunning]
  dsimp only
  unfold assertResumable assertOwn
  have hrecovery : ¬ ∃ stored ∈ some m, stored.rollbackState = some .recoveryRequired := by
    rintro ⟨_, ⟨⟩, hstate⟩
    rw [hreset.rollbackState] at hstate
    cases hstate
  have huncrossed : ¬ ∃ stored ∈ some m, stored.Crossed := by
    rintro ⟨_, ⟨⟩, hcross⟩
    exact hreset.uncrossed hcross
  refine ends_bind.mpr (ends_bind.mpr (ends_refuseWhen hrecovery fun _ =>
    ends_refuseWhen huncrossed fun _ => ?_))
  refine ends_bind.mpr (ends_bind.mpr (ends_refuseWhen (fun hother => hother hown.migrationId)
    fun _ => ends_refuseWhen (fun hother => hother hown.schemaVersion) fun _ => ?_))
  refine (smooth_migrate r source m times q hanswers).bind (fun _ h => h) fun m' _ _ => ?_
  exact ⟨m', rfl⟩

end Faultless

section Runs

variable (r : MigrationRunner) (source : LegacyMigrationSource δ)

inductive Call where
  | run (times : RunTimes)
  | rollback (rollbackAt : ℚ)
  | recoverBackup (backupRecoveryAt : ℚ)

def Call.work : Call → Work δ MigrationResult
  | .run times => MigrationRunner.run r source times
  | .rollback rollbackAt => r.rollback rollbackAt
  | .recoverBackup backupRecoveryAt => r.recoverBackup backupRecoveryAt

structure Episode where
  call : Call
  answers : List Answer

structure Host (δ : Type) where
  world : World δ
  answered : Option (Except Fault MigrationResult)

def Host.start (committed : List (Import δ)) : Host δ :=
  ⟨⟨none, false, [], committed, [], 0, []⟩, none⟩

def Host.step (h : Host δ) (e : Episode) : Host δ :=
  let after := e.call.work r source ⟨h.world, e.answers⟩
  ⟨after.2.world, some after.1⟩

def Host.run (h : Host δ) (episodes : List Episode) : Host δ := Runs.after (Host.step r source) h episodes

def Host.Sensible (h : Host δ) (e : Episode) : Prop :=
  match e.call with
  | .run _ => Intact source h.world
  | _ => True

instance [DecidableEq δ] (h : Host δ) : (e : Episode) → Decidable (h.Sensible source e)
  | ⟨.run _, _⟩ => inferInstanceAs (Decidable (Intact source h.world))
  | ⟨.rollback _, _⟩ => .isTrue trivial
  | ⟨.recoverBackup _, _⟩ => .isTrue trivial

structure Safe (h : Host δ) : Prop where
  complete : ∀ m resumed, h.answered = some (.ok (.ran m resumed)) → m.status = .complete ∧
    (Recovered h.world.log ∨ ∀ step, ∀ item ∈ importsOf source step, item ∈ h.world.committed)
  boundary : h.world.log.Pairwise Boundary
  again : ∀ m electron, h.answered = some (.ok (.rolledBack m electron)) →
    h.world.marker = some m ∧ ∀ times,
      (∃ m', (h.step r source ⟨.run times, []⟩).answered = some (.ok (.ran m' true))) ∧
      ∀ answers m' resumed,
        (h.step r source ⟨.run times, answers⟩).answered = some (.ok (.ran m' resumed)) →
          ImportedSince source h.world.log [] (h.step r source ⟨.run times, answers⟩).world

variable {r} {source} {h : Host δ}

theorem Safe.of_kept (hkept : Kept r source h.world)
    (hran : ∀ m resumed, h.answered = some (.ok (.ran m resumed)) →
      h.world.marker = some m ∧ m.status = .complete)
    (hreset : ∀ m electron, h.answered = some (.ok (.rolledBack m electron)) →
      h.world.marker = some m ∧ Reset m) : Safe r source h where
  complete m resumed hanswered := by
    obtain ⟨hmarker, hstatus⟩ := hran m resumed hanswered
    exact ⟨hstatus, (hkept.complete m hmarker hstatus).2.2⟩
  boundary := hkept.boundary
  again m electron hanswered := by
    obtain ⟨hmarker, hm⟩ := hreset m electron hanswered
    refine ⟨hmarker, fun times => ⟨?_, fun answers m' resumed hagain => ?_⟩⟩
    · obtain ⟨result, hresult, m', rfl⟩ := (run_answers hkept hmarker hm times).answers
      exact ⟨m', congrArg some hresult⟩
    · have hintact : Intact source h.world := by
        intro stored hstored _ step hstep
        rw [hmarker] at hstored
        cases hstored
        rw [hm.completedSteps] at hstep
        cases hstep
      have hrun := (ends_run (p := ⟨h.world, answers⟩) hkept hintact times).answer
        (Option.some.inj hagain)
      obtain ⟨-, _, _, -, -, -, himported⟩ := hrun
      have hsince := himported m hmarker (by rw [hm.status]; decide)
      rw [hm.completedSteps] at hsince
      exact hsince

theorem step_kept (hkept : Kept r source h.world) {e : Episode} (hsensible : h.Sensible source e) :
    Kept r source (h.step r source e).world ∧ Safe r source (h.step r source e) := by
  obtain ⟨call, answers⟩ := e
  cases call with
  | run times =>
    have hends := ends_run (p := ⟨h.world, answers⟩) hkept hsensible times
    have hafter := (hends.mono (fun _ _ hq => hq.1) fun _ hq => hq).state
    refine ⟨hafter, Safe.of_kept hafter (fun m resumed hanswered => ?_) fun m electron hanswered => ?_⟩
    · obtain ⟨-, m', _, heq, hmarker, hstatus, -⟩ := hends.answer (Option.some.inj hanswered)
      cases heq
      exact ⟨hmarker, hstatus⟩
    · obtain ⟨-, m', _, heq, -⟩ := hends.answer (Option.some.inj hanswered)
      cases heq
  | rollback rollbackAt =>
    have hends := ends_rollback (p := ⟨h.world, answers⟩) hkept rollbackAt
    have hafter := (hends.mono (fun _ _ hq => hq.1) fun _ hq => hq).state
    refine ⟨hafter, Safe.of_kept hafter (fun m resumed hanswered => ?_) fun m electron hanswered => ?_⟩
    · obtain ⟨-, m', _, heq, -⟩ := hends.answer (Option.some.inj hanswered)
      cases heq
    · obtain ⟨-, m', _, heq, hmarker, hreset⟩ := hends.answer (Option.some.inj hanswered)
      cases heq
      exact ⟨hmarker, hreset⟩
  | recoverBackup backupRecoveryAt =>
    have hends := ends_recoverBackup (p := ⟨h.world, answers⟩) hkept backupRecoveryAt
    have hafter := (hends.mono (fun _ _ hq => hq.1) fun _ hq => hq).state
    refine ⟨hafter, Safe.of_kept hafter (fun m resumed hanswered => ?_) fun m electron hanswered => ?_⟩
    · obtain ⟨-, m', _, heq⟩ := hends.answer (Option.some.inj hanswered)
      cases heq
    · obtain ⟨-, m', _, heq⟩ := hends.answer (Option.some.inj hanswered)
      cases heq

theorem start_kept {committed : List (Import δ)} : Kept r source (Host.start committed).world := by
  refine ⟨List.Pairwise.nil, fun hcommits => ?_, ?_, ?_⟩
  · obtain ⟨_, hmem⟩ := hcommits
    cases hmem
  · intro m hm
    cases hm
  · intro m hm
    cases hm

/-- Over any calls, failures and stops the runner is safe, as long as every run begins from a marker
whose steps are still staged. -/
theorem migration_runs (r : MigrationRunner) (source : LegacyMigrationSource δ)
    (committed : List (Import δ)) (episodes : List Episode)
    (hsensible : Runs.Meets (Host.step r source) (Host.Sensible source) (Host.start committed) episodes) :
    Safe r source ((Host.start committed).run r source episodes) := by
  have hstep : ∀ (h : Host δ) (e : Episode), Kept r source h.world ∧ Safe r source h →
      h.Sensible source e → Kept r source (h.step r source e).world ∧ Safe r source (h.step r source e) :=
    fun _ _ hh he => step_kept hh.1 he
  have hstart : Kept r source (Host.start committed).world ∧ Safe r source (Host.start committed) := by
    refine ⟨start_kept, Safe.of_kept start_kept (fun m resumed hanswered => ?_)
      fun m electron hanswered => ?_⟩
    · cases hanswered
    · cases hanswered
  exact (Runs.invariant_of_meets (I := fun h => Kept r source h.world ∧ Safe r source h) hstep hstart
    hsensible).2

def plainRunner : MigrationRunner :=
  { migrationId := js "legacy-1"
    migrationId_valid := by decide
    expectedServerId := none
    incompatible := none
    capturesElectron := false
    restoresElectron := false
    restoresBackup := true }

def plainSource : LegacyMigrationSource ℕ := ⟨none, some 1, some 2, none, none, none, []⟩

def someTimes : RunTimes := ⟨0, 1, 1⟩

/-- The second import fails, a rollback clears what is staged, and the next run stops at its commit. -/
theorem migration_runs_rolledBack :
    Safe plainRunner plainSource ((Host.start []).run plainRunner plainSource
      [⟨.run someTimes, [.done, .done, .done, .done, .done, .done, .failed true (.other [])]⟩,
        ⟨.rollback 2, []⟩, ⟨.run someTimes, []⟩]) :=
  migration_runs plainRunner plainSource [] _ (by decide +kernel)

/-- A rollback discards the staged imports and then fails to restore the backup: the next run leaves
out the settings, and answers complete. -/
def brokenOff : Host ℕ :=
  (Host.start []).run plainRunner plainSource
    [⟨.run someTimes, [.done, .done, .done, .done, .done, .done, .failed true (.other [])]⟩,
      ⟨.rollback 2, [.done, .done, .failed false (.other [])]⟩, ⟨.run someTimes, []⟩]

def Host.ran (host : Host ℕ) : Bool :=
  match host.answered with
  | some (.ok (.ran _ _)) => true
  | _ => false

def restoresNothing : Request ℕ × Bool → Bool
  | (.restoreBackup _, took) => !took
  | _ => true

theorem settings_lost : ¬ Safe plainRunner plainSource brokenOff := by
  have hanswered : brokenOff.ran = true := by decide +kernel
  have hlost : Import.value .settings (some 1) ∉ brokenOff.world.committed := by decide +kernel
  have hrestored : brokenOff.world.log.all restoresNothing = true := by decide +kernel
  intro hsafe
  rw [Host.ran] at hanswered
  split at hanswered
  next m resumed heq =>
    rcases (hsafe.complete m resumed heq).2 with hrecovered | hheld
    · obtain ⟨before, after, hlog, -, backupId, hmem⟩ := hrecovered
      rw [hlog] at hrestored
      have hentry := List.all_eq_true.mp hrestored _ (List.mem_append_right before hmem)
      cases hentry
    · exact hlost (hheld .settings _ List.mem_cons_self)
  · cases hanswered

end Runs

end Terminay.Migration
