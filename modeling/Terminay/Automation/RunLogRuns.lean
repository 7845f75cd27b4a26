import Terminay.Automation.RunLogRestart

/-!
# Runs of the run log

Over every run of queued mutations and their commits, what is in memory when a mutation resolves
is what a restart loads.
-/

namespace Terminay.Automation
open Script

namespace RunLog

variable {options : LogOptions} {log : RunLog} {retention : Str → Option ℤ} {now : ℤ}

theorem Same.refl (log : RunLog) : log.Same log := fun _ => ⟨rfl, rfl, rfl⟩

theorem Same.trans {a b c : RunLog} (hab : a.Same b) (hbc : b.Same c) : a.Same c := fun id =>
  ⟨(hab id).1.trans (hbc id).1, (hab id).2.1.trans (hbc id).2.1, (hab id).2.2.trans (hbc id).2.2⟩

theorem runsOf_mem {id : Str} {entry : RunEntry} (h : entry ∈ log.runsOf id) :
    ∃ entries, log.runs.get id = some entries ∧ entry ∈ entries := by
  rw [runsOf] at h
  rcases hget : log.runs.get id with _ | entries
  · rw [hget] at h
    cases h
  · rw [hget] at h
    exact ⟨entries, rfl, h⟩

theorem expiredChanges_ne {id : Str} {entry : RunEntry} (hmem : entry ∈ log.runsOf id)
    (hexpired : isExpired retention now entry = true) : log.expiredChanges retention now ≠ [] := by
  obtain ⟨entries, hget, hentry⟩ := runsOf_mem hmem
  have hany : entries.any (isExpired retention now) = true := List.any_eq_true.mpr ⟨entry, hentry, hexpired⟩
  apply List.ne_nil_of_mem
  apply List.mem_filterMap.mpr
  exact ⟨(id, entries), OrderedMap.get_eq_some.mp hget, by rw [if_pos hany]⟩

theorem purgeExpired_same (h : log.expiredChanges retention now = []) :
    (log.purgeExpired retention now).Same log := by
  intro id
  refine ⟨?_, rfl, rfl⟩
  rw [runsOf, runsOf, purgeExpired, OrderedMap.get_filterMap]
  rcases hget : log.runs.get id with _ | entries
  · rfl
  · have hnone : ¬ entries.any (isExpired retention now) = true := by
      intro hany
      obtain ⟨entry, hentry, hexpired⟩ := List.any_eq_true.mp hany
      have hmem : entry ∈ log.runsOf id := by
        rw [runsOf, hget]
        exact hentry
      exact expiredChanges_ne hmem hexpired h
    rw [Option.bind_some, purgeRuns, if_neg hnone]

theorem dismissMissed_quiet {id : Option Str} (h : (log.dismissMissed id).change = none) :
    (log.dismissMissed id).log.Same log := by
  rcases id with _ | id
  · have hempty : log.missed.entries = [] := by
      by_contra hne
      simp [dismissMissed, hne] at h
    intro other
    refine ⟨rfl, ?_, rfl⟩
    have hnone : log.missed.get other = none := by
      rw [OrderedMap.get, hempty]
      rfl
    rw [hnone]
    rfl
  · have habsent : log.missed.get id = none := by
      by_contra hne
      simp [dismissMissed, Option.isSome_iff_ne_none.mpr hne] at h
    intro other
    refine ⟨rfl, ?_, rfl⟩
    show (log.missed.delete id).get other = _
    rw [OrderedMap.delete_absent habsent]

theorem operate_quiet {mutation : Mutation} {applied : Applied}
    (happlied : log.operate options now mutation = .ok applied) (hchange : applied.change = none)
    (hdirty : applied.dirty = false) :
    applied.log.Same log ∨ ∃ id, mutation = .forget id ∧ applied = log.forget id ∧
      log.missed.get id = none := by
  cases mutation with
  | record entry =>
    simp only [operate, record] at happlied
    split at happlied
    · cases happlied
    · cases happlied
      cases hchange
  | addOpenedSession runId sessionId =>
    left
    cases happlied
    unfold addOpenedSession at hchange ⊢
    split
    · exact .refl log
    · next id entries howner =>
      rw [howner] at hchange
      simp only at hchange ⊢
      split
      · exact .refl log
      · next current hcurrent =>
        rw [hcurrent] at hchange
        by_cases hopened : sessionId ∈ current.openedSessions.getD []
        · rw [if_pos hopened]
          exact .refl log
        · simp [hopened] at hchange
  | addSuppressed id count =>
    left
    cases happlied
    unfold addSuppressed at hchange ⊢
    simp only at hchange ⊢
    split
    · exact .refl log
    · next current hlast =>
      rw [hlast] at hchange
      cases hchange
  | recordMissed id missedCount latestDueAt =>
    left
    cases happlied
    unfold recordMissed at hchange ⊢
    by_cases hinvalid : isSafe missedCount = false ∨ missedCount ≤ 0
    · rw [if_pos hinvalid]
      exact .refl log
    · rw [if_neg hinvalid] at hchange
      cases hchange
  | dismissMissed id =>
    left
    cases happlied
    exact dismissMissed_quiet hchange
  | remove runId =>
    simp only [operate, remove] at happlied
    split at happlied
    · cases happlied
    · split at happlied
      · cases happlied
      · next entry hentry =>
        by_cases hrunning : entry.status = .running
        · rw [if_pos hrunning] at happlied
          cases happlied
        · rw [if_neg hrunning] at happlied
          cases happlied
          cases hchange
  | prune id days =>
    cases happlied
    cases hdirty
  | forget id =>
    right
    cases happlied
    refine ⟨id, rfl, rfl, ?_⟩
    by_contra hne
    simp [forget, Option.isSome_iff_ne_none.mpr hne] at hchange
  | applyRetention =>
    left
    cases happlied
    exact .refl log

/-- There is nothing to forget, or the forgetting is committed with another change. -/
def Forgettable (log : RunLog) (retention : Str → Option ℤ) (now : ℤ) (id : Str) : Prop :=
  (log.missed.get id).isSome = true ∨
    (log.runsOf id = [] ∧ log.pruneChoices.get id = none) ∨
    ∃ other, other ≠ id ∧ ∃ entry ∈ log.runsOf other, isExpired retention now entry = true

theorem forget_runsOf (log : RunLog) (id other : Str) :
    (log.forget id).log.runsOf other = if other = id then [] else log.runsOf other := by
  rw [runsOf, forget, OrderedMap.get_delete]
  split_ifs
  · rfl
  · rfl

theorem forget_quiet {id : Str} (h : log.Forgettable retention now id)
    (hmissed : log.missed.get id = none)
    (hexpired : (log.forget id).log.expiredChanges retention now = []) :
    (log.forget id).log.Same log := by
  rcases h with hsome | ⟨hruns, hchoice⟩ | ⟨other, hother, entry, hentry, hold⟩
  · rw [hmissed] at hsome
    cases hsome
  · intro a
    refine ⟨?_, ?_, ?_⟩
    · rw [forget_runsOf]
      split_ifs with ha
      · rw [ha, hruns]
      · rfl
    · exact congrArg (fun m : OrderedMap Str MissedRecord => m.get a)
        (OrderedMap.delete_absent hmissed)
    · exact congrArg (fun m : OrderedMap Str ℤ => m.get a) (OrderedMap.delete_absent hchoice)
  · have hmem : entry ∈ (log.forget id).log.runsOf other := by
      rw [forget_runsOf, if_neg hother]
      exact hentry
    exact (expiredChanges_ne hmem hold hexpired).elim

end RunLog

namespace LogService

variable {options : LogOptions} {s : LogService}

/-- No commit fails, what a mutation keeps can be loaded, and a mutation that forgets runs has
something to announce. -/
def Kept (s : LogService) : LogInput → Prop
  | .call _ => True
  | .run now retention => ∀ mutation ∈ s.queue.head?, mutation.Fits s.log ∧
      ∀ id, mutation = .forget id → s.log.Forgettable retention now id
  | .committed fails => fails = false

/-- What was just resolved is restored by a restart; what was just rejected changed nothing. -/
def Exact (options : LogOptions) (s : LogService) : Prop :=
  match s.settled with
  | none => True
  | some .resolved => s.log.Restores options s.stored
  | some (.rejected log stored) => s.log = log ∧ s.stored = stored

structure Good (options : LogOptions) (s : LogService) : Prop where
  sound : s.log.Sound options
  restores : s.commit = none → s.log.Restores options s.stored
  snapshot : ∀ commit ∈ s.commit, commit.snapshot = s.log.snapshot
  queued : ∀ mutation ∈ s.queue, mutation.isRefused = false
  exact : s.Exact options

theorem opened_good (options : LogOptions) (stored : Option RunLogState) :
    (opened options stored).Good options where
  sound := RunLog.load_sound stored
  restores _ := RunLog.load_restores stored
  snapshot commit h := by cases h
  queued mutation h := by cases h
  exact := trivial

theorem Good.idle (h : s.Good options) : ({ s with settled := none } : LogService).Good options :=
  ⟨h.sound, h.restores, h.snapshot, h.queued, trivial⟩

theorem Good.call (h : s.Good options) (mutation : Mutation) : (s.call mutation).Good options := by
  rw [LogService.call]
  split_ifs with hrefused
  · exact ⟨h.sound, h.restores, h.snapshot, h.queued, rfl, rfl⟩
  · refine ⟨h.sound, h.restores, h.snapshot, fun m hm => ?_, trivial⟩
    rcases List.mem_append.mp hm with hold | hnew
    · exact h.queued m hold
    · rw [List.mem_singleton.mp hnew]
      exact Bool.eq_false_iff.mpr hrefused

theorem Good.finish (h : s.Good options) {now : ℤ} {retention : Str → Option ℤ}
    {mutation : Mutation} {queue : List Mutation} {applied : Applied} (hidle : s.commit = none)
    (hqueue : s.queue = mutation :: queue)
    (happlied : s.log.operate options now mutation = .ok applied)
    (hkept : s.Kept (.run now retention)) :
    ({ s.finish now retention applied with queue } : LogService).Good options := by
  obtain ⟨hfits, hforget⟩ := hkept mutation (by rw [hqueue]; rfl)
  have hrefused := h.queued mutation (by rw [hqueue]; exact List.mem_cons_self)
  have hsound := (h.sound.operate happlied hfits hrefused).purgeExpired retention now
  have hrest : ∀ m ∈ queue, m.isRefused = false := fun m hm =>
    h.queued m (by rw [hqueue]; exact List.mem_cons_of_mem _ hm)
  rw [LogService.finish]
  simp only
  split_ifs with hcommit
  · exact ⟨hsound, fun hnone => (by cases hnone), fun commit hc => (by cases hc; rfl), hrest,
      trivial⟩
  · simp only [not_or, not_not, Bool.not_eq_true, Option.isSome_eq_false_iff,
      Option.isNone_iff_eq_none] at hcommit
    obtain ⟨hchange, hexpired, hdirty⟩ := hcommit
    have happlied_same : applied.log.Same s.log := by
      rcases RunLog.operate_quiet happlied hchange hdirty with hsame | ⟨id, hm, rfl, hmissed⟩
      · exact hsame
      · exact RunLog.forget_quiet (hforget id hm) hmissed hexpired
    have hsame := (RunLog.purgeExpired_same hexpired).trans happlied_same
    have hrestores := (h.restores hidle).same hsame
    have hnone : ∀ commit ∈ s.commit, commit.snapshot =
        (applied.log.purgeExpired retention now).snapshot := by
      rw [hidle]
      exact fun commit hc => (by cases hc)
    exact ⟨hsound, fun _ => hrestores, hnone, hrest, hrestores⟩

theorem Good.run (h : s.Good options) {now : ℤ} {retention : Str → Option ℤ}
    (hkept : s.Kept (.run now retention)) : (s.run options now retention).Good options := by
  unfold LogService.run
  split
  · next mutation queue hidle hqueue =>
    split
    · exact ⟨h.sound, h.restores, h.snapshot,
        fun m hm => h.queued m (by rw [hqueue]; exact List.mem_cons_of_mem _ hm), rfl, rfl⟩
    · next applied happlied => exact h.finish hidle hqueue happlied hkept
  · exact h.idle

theorem Good.committed (h : s.Good options) : (s.committed false).Good options := by
  unfold LogService.committed
  split
  · exact h.idle
  · next commit hcommit =>
    have hsnapshot := h.snapshot commit hcommit
    have hrestores : s.log.Restores options (some commit.snapshot) := by
      rw [hsnapshot]
      exact h.sound.restores
    exact ⟨h.sound, fun _ => hrestores, fun c hc => (by cases hc), h.queued, hrestores⟩

theorem Good.step (h : s.Good options) {input : LogInput} (hkept : s.Kept input) :
    (s.step options input).Good options := by
  cases input with
  | call mutation => exact h.call mutation
  | run now retention => exact h.run hkept
  | committed fails =>
    have hfails : fails = false := hkept
    subst hfails
    exact h.committed

end LogService

/-- In every run that keeps the condition, each mutation that resolves is restored by a restart
and each that rejects changed nothing. -/
theorem run_log_exact (options : LogOptions) (stored : Option RunLogState)
    (inputs : List LogInput)
    (hkept : Runs.Meets (LogService.step options) LogService.Kept (.opened options stored)
      inputs) :
    (Runs.after (LogService.step options) (.opened options stored) inputs).Exact options :=
  (Runs.invariant_of_meets (I := LogService.Good options) (fun _ _ h hk => h.step hk)
    (LogService.opened_good options stored) hkept).exact

def sampleEntry : RunEntry where
  runId := js "r1"
  automationId := js "a1"
  triggerKind := .schedule
  event := none
  firedAt := 10
  startedBy := .trigger
  subject := none
  status := .finished
  outcome := some .succeeded
  skipReason := none
  reason := none
  exitCode := some 0
  startedAt := 10
  finishedAt := some 12
  durationMs := some 2
  sessionId := none
  openedSessions := none
  outputTail := none
  suppressedEvents := 0
  recordingId := none

def defaultOptions : LogOptions := ⟨100, 16384⟩

def forgottenInputs : List LogInput :=
  [.call (.record sampleEntry), .run 20 fun _ => none, .committed false,
    .call (.forget (js "a1")), .run 30 fun _ => none]

def failedInputs : List LogInput :=
  [.call (.recordMissed (js "a1") 1 10), .run 20 fun _ => none, .committed true]

def recordedInputs : List LogInput := forgottenInputs.take 3

theorem run_log_exact_recorded :
    (Runs.after (LogService.step defaultOptions) (.opened defaultOptions none)
      recordedInputs).Exact defaultOptions := by
  apply run_log_exact
  refine ⟨trivial, fun mutation hm => ?_, rfl, trivial⟩
  cases hm
  exact ⟨trivial, fun id h => (by cases h)⟩

/-- The forgotten run is back after a restart, and the missed record that failed is kept. -/
theorem run_log_not_exact :
    ¬ (Runs.after (LogService.step defaultOptions) (.opened defaultOptions none)
        forgottenInputs).Exact defaultOptions ∧
      ¬ (Runs.after (LogService.step defaultOptions) (.opened defaultOptions none)
        failedInputs).Exact defaultOptions := by
  constructor
  · intro h
    have hruns := (h (js "a1")).1
    revert hruns
    decide +kernel
  · intro h
    have hmissed := congrArg (fun log : RunLog => log.missed.get (js "a1")) h.1
    revert hmissed
    decide +kernel

end Terminay.Automation
