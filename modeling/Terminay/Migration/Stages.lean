import Terminay.Migration.Runner

/-!
# The stages of a migration

Until the marker says that the commit may have happened the commit was not invoked.
-/

namespace Terminay.Migration
open Fallible

variable {δ : Type}

section Kept

def Commits (log : List (Request δ × Bool)) : Prop :=
  ∃ took, (Request.commitServerOnlyMutations, took) ∈ log

/-- A backup was restored after the commit was invoked. -/
def Recovered (log : List (Request δ × Bool)) : Prop :=
  ∃ before after, log = before ++ after ∧ Commits before ∧
    ∃ backupId, (Request.restoreBackup backupId, true) ∈ after

/-- Once the commit was invoked it is not invoked again, and Electron is not restored. -/
def Boundary (earlier later : Request δ × Bool) : Prop :=
  earlier.1 = .commitServerOnlyMutations →
    later.1 ≠ .commitServerOnlyMutations ∧ ∀ backupId, later.1 ≠ .restoreElectronState backupId

structure MigrationRunner.Admits (r : MigrationRunner) (source : LegacyMigrationSource δ) : Prop where
  valid : ¬ source.serverId.any (fun id => 128 < id.length) = true
  compatible : r.incompatible = none
  identity : ¬ ∃ expected ∈ r.expectedServerId, ∃ id ∈ source.serverId, id ≠ expected

variable (r : MigrationRunner) (source : LegacyMigrationSource δ)

structure Own (m : MigrationMarker) : Prop where
  migrationId : m.migrationId = r.migrationId
  schemaVersion : m.schemaVersion = migrationSchemaVersion
  admitted : r.Admits source

structure Kept (w : World δ) : Prop where
  boundary : w.log.Pairwise Boundary
  crossed : Commits w.log → ∃ m ∈ w.marker, m.Crossed
  marked : ∀ m ∈ w.marker, Own r source m ∧ m.backupId.isSome = true
  complete : ∀ m ∈ w.marker, m.status = .complete → Commits w.log ∧ m.Crossed ∧
    (Recovered w.log ∨ ∀ step, ∀ item ∈ importsOf source step, item ∈ w.committed)

variable {r} {source} {w : World δ} {call : Request δ} {took : Bool} {m : MigrationMarker}

theorem Own.carried {next : MigrationMarker} (h : Own r source m)
    (hid : next.migrationId = m.migrationId) (hschema : next.schemaVersion = m.schemaVersion) :
    Own r source next :=
  ⟨hid.trans h.migrationId, hschema.trans h.schemaVersion, h.admitted⟩

theorem invoke_log (w : World δ) (call : Request δ) (took : Bool) :
    (w.invoke call took).log = w.log ++ [(call, took)] := rfl

theorem Commits.append {log : List (Request δ × Bool)} (h : Commits log)
    (more : List (Request δ × Bool)) : Commits (log ++ more) := by
  obtain ⟨took, hmem⟩ := h
  exact ⟨took, List.mem_append_left _ hmem⟩

theorem Recovered.append {log : List (Request δ × Bool)} (h : Recovered log)
    (more : List (Request δ × Bool)) : Recovered (log ++ more) := by
  obtain ⟨before, after, rfl, hbefore, backupId, hafter⟩ := h
  exact ⟨before, after ++ more, List.append_assoc _ _ _, hbefore, backupId,
    List.mem_append_left _ hafter⟩

theorem commits_invoke (hcall : call ≠ .commitServerOnlyMutations) :
    Commits (w.log ++ [(call, took)]) ↔ Commits w.log := by
  constructor
  · rintro ⟨t, hmem⟩
    rcases List.mem_append.mp hmem with hold | hnew
    · exact ⟨t, hold⟩
    · rw [List.mem_singleton, Prod.mk.injEq] at hnew
      exact absurd hnew.1.symm hcall
  · exact fun h => h.append _

theorem boundary_invoke (h : w.log.Pairwise Boundary)
    (hquiet : Commits w.log → call ≠ .commitServerOnlyMutations ∧
      ∀ backupId, call ≠ .restoreElectronState backupId) :
    (w.log ++ [(call, took)]).Pairwise Boundary := by
  refine List.pairwise_append.mpr ⟨h, List.pairwise_singleton _ _, fun e he l hl => ?_⟩
  rw [List.mem_singleton.mp hl]
  intro hcommit
  obtain ⟨request, t⟩ := e
  obtain rfl : request = .commitServerOnlyMutations := hcommit
  exact hquiet ⟨t, he⟩

theorem Kept.invoke (h : Kept r source w) (hsave : (w.invoke call took).marker = w.marker)
    (hquiet : Commits w.log → call ≠ .commitServerOnlyMutations ∧
      ∀ backupId, call ≠ .restoreElectronState backupId)
    (hcrossed : call = .commitServerOnlyMutations → ∃ m ∈ w.marker, m.Crossed)
    (hcommitted : ∀ m ∈ w.marker, m.status = .complete →
      Recovered (w.log ++ [(call, took)]) ∨
        ∀ item ∈ w.committed, item ∈ (w.invoke call took).committed) :
    Kept r source (w.invoke call took) := by
  refine ⟨boundary_invoke h.boundary hquiet, fun hcommits => ?_, fun m hm => ?_,
    fun m hm hstatus => ?_⟩
  · rw [hsave]
    rcases eq_or_ne call .commitServerOnlyMutations with hcall | hcall
    · exact hcrossed hcall
    · exact h.crossed ((commits_invoke hcall).mp hcommits)
  · rw [hsave] at hm
    exact h.marked m hm
  · rw [hsave] at hm
    obtain ⟨hcommits, hcross, hheld⟩ := h.complete m hm hstatus
    refine ⟨hcommits.append _, hcross, ?_⟩
    rcases hheld with hrecovered | hall
    · exact .inl (hrecovered.append _)
    · exact (hcommitted m hm hstatus).imp_right fun hkeep step item hitem =>
        hkeep item (hall step item hitem)

theorem Kept.mark (h : Kept r source w) (hown : Own r source m) (hbacked : m.backupId.isSome = true)
    (hcross : Commits w.log → m.Crossed)
    (hcomplete : m.status = .complete → Commits w.log ∧ m.Crossed ∧
      (Recovered w.log ∨ ∀ step, ∀ item ∈ importsOf source step, item ∈ w.committed)) :
    Kept r source (w.invoke (.saveMarker m) took) := by
  cases took with
  | false =>
    exact h.invoke rfl (fun _ => ⟨nofun, nofun⟩) nofun fun _ _ _ => .inr fun _ hitem => hitem
  | true =>
    have hsame : Commits (w.log ++ [(Request.saveMarker m, true)]) ↔ Commits w.log :=
      commits_invoke nofun
    refine ⟨boundary_invoke h.boundary fun _ => ⟨nofun, nofun⟩, fun hcommits => ?_, ?_, ?_⟩
    · exact ⟨m, rfl, hcross (hsame.mp hcommits)⟩
    · rintro _ ⟨⟩
      exact ⟨hown, hbacked⟩
    · rintro _ ⟨⟩ hstatus
      obtain ⟨hcommits, hcrossed, hheld⟩ := hcomplete hstatus
      exact ⟨hcommits.append _, hcrossed, hheld.imp_left fun hrecovered => hrecovered.append _⟩

theorem Kept.save (h : Kept r source w) (hown : Own r source m) (hbacked : m.backupId.isSome = true)
    (hcross : Commits w.log → m.Crossed) (hstatus : m.status ≠ .complete) :
    Kept r source (w.invoke (.saveMarker m) took) :=
  h.mark hown hbacked hcross fun hcomplete => absurd hcomplete hstatus

end Kept

section Requests

variable {p : Process δ} {Q : Unit → Process δ → Prop} {E : Process δ → Prop} {call : Request δ}

theorem ends_request (hdone : ∀ answers, Q () ⟨p.world.invoke call true, answers⟩)
    (hfault : ∀ took answers, E ⟨p.world.invoke call took, answers⟩) : Ends (request call) p Q E := by
  unfold Ends request
  rcases p.answers with _ | ⟨answer, rest⟩
  · exact hdone []
  · cases answer with
    | done => exact hdone rest
    | failed took thrown => exact hfault took rest
    | stopped took => exact hfault took rest

theorem ends_refuseWhen {c : Prop} [Decidable c] {code : MigrationErrorCode} {message : String}
    (hrefused : c → E p) (hpassed : ¬ c → Q () p) : Ends (refuseWhen c code message) p Q E := by
  unfold refuseWhen
  by_cases hc : c
  · rw [if_pos hc]
    exact hrefused hc
  · rw [if_neg hc]
    exact hpassed hc

end Requests

section Going

variable (r : MigrationRunner) (source : LegacyMigrationSource δ)
  (before : List (Request δ × Bool)) (done : List MigrationStep)

structure Halted (w : World δ) : Prop where
  kept : Kept r source w
  uncommitted : ¬ Commits w.log

structure Going (m : MigrationMarker) (w : World δ) : Prop extends Halted r source w where
  unfinished : ∀ stored ∈ w.marker, stored.status ≠ .complete
  own : Own r source m
  status : m.status ≠ .complete
  staged : ∀ step ∈ m.completedSteps, ∀ item ∈ importsOf source step, item ∈ w.staged
  longer : before.length ≤ w.log.length
  imported : ∀ step ∈ m.completedSteps, step ∉ done → ∀ item ∈ importsOf source step,
    (Request.importInto item, true) ∈ w.log.drop before.length

variable {r} {source} {before} {done} {w : World δ} {call : Request δ} {took : Bool}
  {m m' : MigrationMarker} {p : Process δ}

theorem drop_invoke (h : before.length ≤ w.log.length) (call : Request δ) (took : Bool) :
    (w.invoke call took).log.drop before.length = w.log.drop before.length ++ [(call, took)] := by
  rw [invoke_log, List.drop_append_of_le_length h]

theorem Halted.save (h : Halted r source w) (hown : Own r source m)
    (hbacked : m.backupId.isSome = true) (hstatus : m.status ≠ .complete) (took : Bool) :
    Halted r source (w.invoke (.saveMarker m) took) where
  kept := h.kept.save hown hbacked (fun hcommits => absurd hcommits h.uncommitted) hstatus
  uncommitted hcommits := by
    have hsame : Commits (w.log ++ [(Request.saveMarker m, took)]) ↔ Commits w.log :=
      commits_invoke nofun
    exact h.uncommitted (hsame.mp hcommits)

theorem Going.invoke (h : Going r source before done m w) (call : Request δ) (took : Bool)
    (hcall : call ≠ .commitServerOnlyMutations) (hsave : (w.invoke call took).marker = w.marker)
    (hstaged : ∀ item ∈ w.staged, item ∈ (w.invoke call took).staged) :
    Going r source before done m (w.invoke call took) where
  kept := by
    refine h.kept.invoke hsave (fun hcommits => absurd hcommits h.uncommitted)
      (fun hcommit => absurd hcommit hcall) fun stored hstored hcomplete => ?_
    exact absurd hcomplete (h.unfinished stored hstored)
  uncommitted hcommits := h.uncommitted ((commits_invoke hcall).mp hcommits)
  unfinished stored hstored := by
    rw [hsave] at hstored
    exact h.unfinished stored hstored
  own := h.own
  status := h.status
  staged step hstep item hitem := hstaged item (h.staged step hstep item hitem)
  longer := by
    rw [invoke_log, List.length_append]
    have hlonger := h.longer
    omega
  imported step hstep hnew item hitem := by
    rw [drop_invoke h.longer]
    exact List.mem_append_left _ (h.imported step hstep hnew item hitem)

theorem Going.save (h : Going r source before done m w) (hown : Own r source m')
    (hbacked : m'.backupId.isSome = true) (hstatus : m'.status ≠ .complete)
    (hsteps : ∀ step ∈ m'.completedSteps, step ∈ m.completedSteps ∨
      ∀ item ∈ importsOf source step, item ∈ w.staged ∧
        (Request.importInto item, true) ∈ w.log.drop before.length) :
    Going r source before done m' (w.invoke (.saveMarker m') true) where
  toHalted := h.toHalted.save hown hbacked hstatus true
  unfinished := by
    rintro _ ⟨⟩
    exact hstatus
  own := hown
  status := hstatus
  staged step hstep item hitem := by
    rcases hsteps step hstep with hold | hnew
    · exact h.staged step hold item hitem
    · exact (hnew item hitem).1
  longer := by
    rw [invoke_log, List.length_append]
    have hlonger := h.longer
    omega
  imported step hstep hundone item hitem := by
    rw [drop_invoke h.longer]
    refine List.mem_append_left _ ?_
    rcases hsteps step hstep with hold | hnew
    · exact h.imported step hold hundone item hitem
    · exact (hnew item hitem).2

theorem ends_failWith {α : Type} {Q : α → Process δ → Prop} {E : Process δ → Prop}
    {marker : MigrationError → MigrationMarker} {message : String} {step : Option MigrationStep}
    (h : E p)
    (hsave : ∀ failure took answers, E ⟨p.world.invoke (.saveMarker (marker failure)) took, answers⟩)
    (fault : Fault) : Ends (MigrationRunner.failWith marker message step fault) p Q E := by
  cases fault with
  | stopped => exact h
  | thrown thrown =>
    have hlast := hsave (failureOf thrown message step)
    exact ends_bind.mpr (ends_request (fun answers => hlast true answers) hlast)

theorem ends_call {Q : Unit → Process δ → Prop} (h : Going r source before done m p.world)
    (hcall : call ≠ .commitServerOnlyMutations)
    (hsave : (p.world.effect call).marker = p.world.marker)
    (hstaged : ∀ item ∈ p.world.staged, item ∈ (p.world.effect call).staged)
    (hQ : ∀ q : Process δ, Going r source before done m q.world →
      q.world = p.world.invoke call true → Q () q) :
    Ends (request call) p Q fun q => Halted r source q.world := by
  refine ends_request (fun answers => ?_) fun took answers => ?_
  · exact hQ _ (h.invoke call true hcall hsave hstaged) rfl
  · cases took with
    | false => exact (h.invoke call false hcall rfl fun _ hitem => hitem).toHalted
    | true => exact (h.invoke call true hcall hsave hstaged).toHalted

theorem ends_save {Q : Unit → Process δ → Prop} (h : Going r source before done m p.world)
    (hown : Own r source m') (hbacked : m'.backupId.isSome = true) (hstatus : m'.status ≠ .complete)
    (hsteps : ∀ step ∈ m'.completedSteps, step ∈ m.completedSteps ∨
      ∀ item ∈ importsOf source step, item ∈ p.world.staged ∧
        (Request.importInto item, true) ∈ p.world.log.drop before.length)
    (hQ : ∀ q : Process δ, Going r source before done m' q.world →
      q.world = p.world.invoke (.saveMarker m') true → Q () q) :
    Ends (saveMarker m') p Q fun q => Halted r source q.world := by
  refine ends_request (fun answers => ?_) fun took answers => ?_
  · exact hQ _ (h.save hown hbacked hstatus hsteps) rfl
  · exact h.toHalted.save hown hbacked hstatus took

end Going

section Stages

variable {r : MigrationRunner} {source : LegacyMigrationSource δ}
  {before : List (Request δ × Bool)} {done : List MigrationStep} {m : MigrationMarker}
  {p : Process δ}

open MigrationRunner

theorem ends_backUp (h : Going r source before done m p.world) :
    Ends (backUp m) p
      (fun m' q => Going r source before done m' q.world ∧ m'.backupId.isSome = true ∧
        m'.completedSteps = m.completedSteps)
      fun q => Halted r source q.world := by
  unfold backUp
  refine ends_ite.mpr ⟨fun hnone => ?_, fun hsome => ends_ite.mpr ⟨fun hpending => ?_, fun _ => ?_⟩⟩
  · refine ends_bind.mpr (ends_bind.mpr (ends_bind.mpr ?_))
    refine ends_call h nofun rfl (fun _ hitem => hitem) fun q hq _ => ?_
    refine ends_bind.mpr (ends_save hq (h.own.carried rfl rfl)
      rfl nofun (fun step hstep => .inl hstep) fun q hq _ => ?_)
    exact ⟨hq, rfl, rfl⟩
  · have hbacked : m.backupId.isSome = true := Option.isSome_iff_ne_none.mpr hsome
    refine ends_bind.mpr (ends_save h (h.own.carried rfl rfl)
      hbacked nofun (fun step hstep => .inl hstep) fun q hq _ => ?_)
    exact ⟨hq, hbacked, rfl⟩
  · exact ⟨h, Option.isSome_iff_ne_none.mpr hsome, rfl⟩

theorem ends_capture (h : Going r source before done m p.world) (hbacked : m.backupId.isSome = true) :
    Ends (capture r m) p
      (fun m' q => Going r source before done m' q.world ∧ m'.backupId.isSome = true ∧
        m'.completedSteps = m.completedSteps)
      fun q => Halted r source q.world := by
  unfold capture
  refine ends_ite.mpr ⟨fun _ => ?_, fun _ => ⟨h, hbacked, rfl⟩⟩
  refine ends_bind.mpr (ends_bind.mpr (ends_bind.mpr ?_))
  refine ends_call h nofun rfl (fun _ hitem => hitem) fun q hq _ => ?_
  refine ends_bind.mpr (ends_save hq (h.own.carried rfl rfl)
    hbacked h.status (fun step hstep => .inl hstep) fun q hq _ => ?_)
  exact ⟨hq, hbacked, rfl⟩

theorem ends_setUp (h : Going r source before done m p.world) (hbacked : m.backupId.isSome = true) :
    Ends (setUp m) p
      (fun _ q => Going r source before done m q.world ∧ q.world.transacting = true)
      fun q => Halted r source q.world := by
  refine Ends.rescue (ends_call h nofun rfl (fun _ hitem => hitem) fun q hq heq => ?_)
    fun fault q hq => ?_
  · exact ⟨hq, by rw [heq]; rfl⟩
  · refine ends_failWith hq (fun failure took answers => ?_) fault
    refine hq.save ?_ ?_ ?_ took
    · exact h.own.carried rfl rfl
    · exact hbacked
    · exact nofun

theorem ends_imports {items : List (Import δ)} (h : Going r source before done m p.world)
    (htransacting : p.world.transacting = true) :
    Ends (requestAll (items.map .importInto)) p
      (fun _ q => Going r source before done m q.world ∧ q.world.transacting = true ∧
        (∀ item ∈ p.world.staged, item ∈ q.world.staged) ∧
        (∀ e ∈ p.world.log.drop before.length, e ∈ q.world.log.drop before.length) ∧
        ∀ item ∈ items, item ∈ q.world.staged ∧
          (Request.importInto item, true) ∈ q.world.log.drop before.length)
      fun q => Halted r source q.world := by
  induction items generalizing p with
  | nil => exact ⟨h, htransacting, fun _ hitem => hitem, fun _ he => he, nofun⟩
  | cons item items ih =>
    have heffect : p.world.effect (.importInto item) =
        { p.world with staged := p.world.staged ++ [item] } := if_pos htransacting
    have hgrown : ∀ old ∈ p.world.staged, old ∈ (p.world.effect (.importInto item)).staged := by
      intro old hold
      rw [heffect]
      exact List.mem_append_left _ hold
    rw [List.map_cons, requestAll]
    refine ends_bind.mpr (ends_call h nofun (by rw [heffect]) hgrown fun q hq heq => ?_)
    have hstaged : q.world.staged = p.world.staged ++ [item] := by
      rw [heq, World.invoke, if_pos rfl, heffect]
    have hlog : q.world.log.drop before.length =
        p.world.log.drop before.length ++ [(.importInto item, true)] := by
      rw [heq, drop_invoke h.longer]
    have hopen : q.world.transacting = true := by
      rw [heq, World.invoke, if_pos rfl, heffect]
      exact htransacting
    refine (ih hq hopen).mono (fun _ t ht => ?_) fun _ ht => ht
    obtain ⟨hgoing, hstill, hkept, hlogged, hitems⟩ := ht
    refine ⟨hgoing, hstill, fun old hold => hkept old ?_, fun e he => hlogged e ?_, ?_⟩
    · rw [hstaged]
      exact List.mem_append_left _ hold
    · rw [hlog]
      exact List.mem_append_left _ he
    · intro i hi
      rcases List.mem_cons.mp hi with rfl | hrest
      · refine ⟨hkept i ?_, hlogged _ ?_⟩
        · rw [hstaged]
          exact List.mem_append_right _ List.mem_cons_self
        · rw [hlog]
          exact List.mem_append_right _ List.mem_cons_self
      · exact hitems i hrest

theorem ends_importSteps {todo : List MigrationStep} (h : Going r source before done m p.world)
    (hbacked : m.backupId.isSome = true) (htransacting : p.world.transacting = true) :
    Ends (importSteps source todo m) p
      (fun m' q => Going r source before done m' q.world ∧ m'.backupId.isSome = true ∧
        ∀ step, step ∈ todo ∨ step ∈ m.completedSteps → step ∈ m'.completedSteps)
      fun q => Halted r source q.world := by
  induction todo generalizing p m with
  | nil => exact ⟨h, hbacked, fun step hstep => hstep.resolve_left nofun⟩
  | cons step todo ih =>
    rw [importSteps]
    refine ends_ite.mpr ⟨fun hdone => ?_, fun _ => ends_bind.mpr ?_⟩
    · refine (ih h hbacked htransacting).mono (fun m' q hq => ?_) fun _ hq => hq
      obtain ⟨hgoing, hkept, hsteps⟩ := hq
      refine ⟨hgoing, hkept, fun s hs => hsteps s ?_⟩
      rcases hs with hs | hs
      · rcases List.mem_cons.mp hs with rfl | hrest
        · exact .inr hdone
        · exact .inl hrest
      · exact .inr hs
    · refine Ends.rescue ((ends_imports h htransacting).mono (fun _ q hq => ?_) fun _ hq => hq)
        fun fault q hq => ?_
      · obtain ⟨hgoing, hstill, -, -, hitems⟩ := hq
        refine ends_bind.mpr (ends_save hgoing (h.own.carried rfl rfl)
          hbacked nofun (fun s hs => ?_) fun t ht heq => ?_)
        · rcases List.mem_append.mp hs with hold | hnew
          · exact .inl hold
          · rw [List.mem_singleton.mp hnew]
            exact .inr hitems
        · have hopen : t.world.transacting = true := by
            rw [heq]
            exact hstill
          refine (ih ht hbacked hopen).mono (fun m' q hq => ?_) fun _ hq => hq
          obtain ⟨hlast, hkept, hsteps⟩ := hq
          refine ⟨hlast, hkept, fun s hs => hsteps s ?_⟩
          rcases hs with hs | hs
          · rcases List.mem_cons.mp hs with rfl | hrest
            · exact .inr (List.mem_append_right _ List.mem_cons_self)
            · exact .inl hrest
          · exact .inr (List.mem_append_left _ hs)
      · refine ends_failWith hq (fun failure took answers => ?_) fault
        refine hq.save ?_ ?_ ?_ took
        · exact h.own.carried rfl rfl
        · exact hbacked
        · exact nofun

structure Committed (source : LegacyMigrationSource δ) (m : MigrationMarker) (w : World δ) : Prop where
  commits : Commits w.log
  marker : w.marker = some m
  crossed : m.Crossed
  held : ∀ step, ∀ item ∈ importsOf source step, item ∈ w.committed

theorem ends_commit (h : Going r source before done m p.world) (hbacked : m.backupId.isSome = true)
    (hall : ∀ step, step ∈ m.completedSteps) :
    Ends (commit m) p
      (fun m' q => Kept r source q.world ∧ Own r source m' ∧ m'.backupId.isSome = true ∧
        Committed source m' q.world ∧ before.length ≤ q.world.log.length ∧
        ∀ step ∉ done, ∀ item ∈ importsOf source step,
          (Request.importInto item, true) ∈ q.world.log.drop before.length)
      fun q => Kept r source q.world := by
  have hfault : ∀ t : Process δ, Halted r source t.world → Kept r source t.world := fun _ ht => ht.kept
  have hsave : Ends (saveMarker { m with status := .running, serverCommitState := some .unknown }) p
      (fun _ q => Going r source before done
          { m with status := .running, serverCommitState := some .unknown } q.world ∧
        q.world.marker = some { m with status := .running, serverCommitState := some .unknown })
      fun q => Halted r source q.world := by
    refine ends_save h (h.own.carried rfl rfl) hbacked nofun (fun step hstep => .inl hstep) ?_
    intro q hq heq
    exact ⟨hq, by rw [heq]; rfl⟩
  refine ends_bind.mpr (hsave.mono (fun _ q hq => ?_) hfault)
  obtain ⟨hgoing, hmarker⟩ := hq
  have hinvoke : ∀ took, Kept r source (q.world.invoke .commitServerOnlyMutations took) := by
    intro took
    have hsame : (q.world.invoke .commitServerOnlyMutations took).marker = q.world.marker := by
      cases took <;> rfl
    refine hgoing.kept.invoke hsame (fun hcommits => absurd hcommits hgoing.uncommitted)
      (fun _ => ⟨_, hmarker, .inl rfl⟩) fun stored hstored hcomplete => ?_
    exact absurd hcomplete (hgoing.unfinished stored hstored)
  have hrequest : Ends (request .commitServerOnlyMutations) q
      (fun _ t => t.world = q.world.invoke .commitServerOnlyMutations true)
      fun t => Kept r source t.world := ends_request (fun _ => rfl) fun took _ => hinvoke took
  refine ends_bind.mpr ((Ends.rescue hrequest fun fault t ht => ?_).mono (fun _ t ht => ?_)
    fun _ ht => ht)
  · refine ends_failWith ht (fun failure took answers => ?_) fault
    refine ht.save ?_ ?_ ?_ ?_
    · exact h.own.carried rfl rfl
    · exact hbacked
    · exact fun _ => .inl rfl
    · exact nofun
  · rw [ends_pure, ht]
    refine ⟨hinvoke true, h.own.carried rfl rfl, hbacked, ⟨⟨true, ?_⟩, hmarker, .inl rfl, ?_⟩, ?_, ?_⟩
    · exact List.mem_append_right _ List.mem_cons_self
    · intro step item hitem
      exact List.mem_append_right _ (hgoing.staged step (hall step) item hitem)
    · rw [invoke_log, List.length_append]
      have hlonger := hgoing.longer
      omega
    · intro step hstep item hitem
      rw [drop_invoke hgoing.longer]
      exact List.mem_append_left _ (hgoing.imported step (hall step) hstep item hitem)

end Stages

end Terminay.Migration
