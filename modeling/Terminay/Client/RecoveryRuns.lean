import Terminay.Client.Recovery

/-!
# Runs of the recovery controller

While the display recovers, one re-attach timer is pending or the caller attaches.
-/

namespace Terminay.Client.Recovery

variable {ν : Type} {retryDelayMs : ℕ} {s : TerminalRecoveryController}

def Pending (s : TerminalRecoveryController) (timer : ℕ) : Prop :=
  s.timers[timer]?.map (·.run) = some .reattach

structure Keeps (ν : Type) (retryDelayMs : ℕ) (s : TerminalRecoveryController) : Prop where
  pending : s.state = .recovering → (∃! timer, Pending s timer) ∨
    s.reported = false ∧ (s.asked = true ∨ s.answer = some .attaching)
  offered : ∀ event : TerminalStreamEvent ν, s.state = .streaming →
    isRecoverableSkip event = true → (noteEvent retryDelayMs s event).2 = true ∧
      (noteEvent retryDelayMs s event).1.state = .recovering ∧
      ∃! timer, Pending (noteEvent retryDelayMs s event).1 timer
  disposed : ∀ n ∈ s.disposedAt, s.state = .disposed ∧ s.reattaches = n
  refreshed : s.refreshes ≤ 3

/-- The moments that keep the promises. -/
def Steady (s : TerminalRecoveryController) : Moment ν → Prop
  | .answer outcome =>
    s.asked = true → outcome ≠ .attaching → s.state ≠ .disposed ∧ s.cancelScheduled = none
  | _ => True

instance (s : TerminalRecoveryController) : (moment : Moment ν) → Decidable (Steady s moment)
  | .answer _ => inferInstanceAs (Decidable (_ → _))
  | .noteEvent _ | .noteStreamProgress _ | .noteAttached _ | .noteAttachFailed | .reset _
  | .dispose | .fire _ => .isTrue trivial

/-! ## Timers -/

structure Timed (s : TerminalRecoveryController) : Prop where
  numbered : ∀ (id : ℕ) t, s.timers[id]? = some t → id < s.nextTimer
  scheduled : ∀ id, Pending s id ↔ s.cancelScheduled = some id
  convergence : ∀ id ∈ s.cancelConvergence, id < s.nextTimer ∧ s.cancelScheduled ≠ some id

theorem get_cancel {timers : Table.Of ℕ Timer} {held : Option ℕ} {id : ℕ} :
    (cancel timers held)[id]? = if held = some id then none else timers[id]? := by
  cases held with
  | none => simp [cancel]
  | some timer => simp [cancel, Table.get_erase]

theorem Timed.cancelPending (h : Timed s) : Timed (cancelPending s) := by
  refine ⟨fun id t hid => ?_, fun id => ?_, fun id hid => ⟨(h.convergence id hid).1, nofun⟩⟩
  · simp only [Recovery.cancelPending, get_cancel] at hid
    split_ifs at hid
    exact h.numbered id t hid
  · have hsame := h.scheduled id
    simp only [Pending, Recovery.cancelPending, get_cancel] at hsame ⊢
    split_ifs with hheld
    · simp
    · simp [hsame, hheld]

theorem Timed.endConvergence (h : Timed s) : Timed (endConvergence s) := by
  refine ⟨fun id t hid => ?_, fun id => ?_, nofun⟩
  · simp only [Recovery.endConvergence, get_cancel] at hid
    split_ifs at hid
    exact h.numbered id t hid
  · have hsame := h.scheduled id
    simp only [Pending, Recovery.endConvergence, get_cancel] at hsame ⊢
    split_ifs with hheld
    · simp [(h.convergence id hheld).2]
    · exact hsame

theorem Timed.arm (h : Timed s) {timer : Timer} (hrun : timer.run ≠ .reattach) :
    Timed (armConvergence s timer) := by
  have hfree : s.cancelScheduled ≠ some s.nextTimer := by
    intro hheld
    obtain ⟨t, ht, -⟩ := Option.map_eq_some_iff.mp ((h.scheduled s.nextTimer).mpr hheld)
    exact absurd (h.numbered _ t ht) (lt_irrefl _)
  refine ⟨fun id t hid => ?_, fun id => ?_, fun id hid => ?_⟩
  · simp only [armConvergence, Table.get_insert] at hid
    split_ifs at hid with hnew
    · subst hnew
      exact Nat.lt_succ_self _
    · exact Nat.lt_succ_of_lt (h.numbered id t hid)
  · have hsame := h.scheduled id
    simp only [Pending, armConvergence, Table.get_insert] at hsame ⊢
    split_ifs with hnew
    · subst hnew
      simp [hrun, hfree]
    · exact hsame
  · cases hid
    exact ⟨Nat.lt_succ_self _, hfree⟩

theorem Timed.schedule (h : Timed s) : Timed (scheduleConvergence s) := by
  unfold scheduleConvergence
  dsimp only
  split_ifs
  · exact h.endConvergence.arm nofun
  · exact h.endConvergence
  · exact h.endConvergence.arm nofun
  · exact h.endConvergence

theorem Timed.begin (h : Timed s) (hfree : s.cancelScheduled = none) :
    Timed (beginRecovery retryDelayMs s) := by
  have hend := h.endConvergence
  refine ⟨fun id t hid => ?_, fun id => ?_, nofun⟩
  · simp only [beginRecovery, Table.get_insert] at hid
    split_ifs at hid with hnew
    · subst hnew
      exact Nat.lt_succ_self _
    · exact Nat.lt_succ_of_lt (hend.numbered id t hid)
  · have hsame := hend.scheduled id
    have hnone : (Recovery.endConvergence s).cancelScheduled = none := hfree
    rw [hnone] at hsame
    simp only [Pending, beginRecovery, Table.get_insert] at hsame ⊢
    split_ifs with hnew
    · simp [hnew]
    · simp only [hsame, Option.some.injEq]
      exact ⟨nofun, fun heq => absurd heq hnew⟩

theorem Timed.fired (h : Timed s) (timer : ℕ) (hother : s.cancelScheduled ≠ some timer) :
    Timed { s with timers := s.timers.erase timer } := by
  refine ⟨fun id t hid => ?_, fun id => ?_, h.convergence⟩
  · simp only [Table.get_erase] at hid
    split_ifs at hid
    exact h.numbered id t hid
  · have hsame := h.scheduled id
    simp only [Pending, Table.get_erase] at hsame ⊢
    split_ifs with hfired
    · subst hfired
      simp [hother]
    · exact hsame

theorem Timed.firedReattach (h : Timed s) (timer : ℕ) (hheld : s.cancelScheduled = some timer) :
    Timed { s with timers := s.timers.erase timer, cancelScheduled := none } := by
  have hsame := h.cancelPending
  unfold Recovery.cancelPending at hsame
  rwa [hheld] at hsame

/-! ## The invariant -/

structure Sound (s : TerminalRecoveryController) : Prop extends Timed s where
  recovering : s.cancelScheduled ≠ none → s.state = .recovering
  waiting : s.state = .recovering → s.cancelScheduled = none →
    s.reported = false ∧ (s.asked = true ∨ s.answer = some .attaching)
  disposed : ∀ n ∈ s.disposedAt, s.state = .disposed ∧ s.reattaches = n
  budget : s.refreshes = s.convergenceAttempts
  refreshed : s.refreshes ≤ 3

theorem Sound.free (h : Sound s) (hstate : s.state ≠ .recovering) : s.cancelScheduled = none := by
  by_contra hheld
  exact hstate (h.recovering hheld)

theorem Sound.undisposed (h : Sound s) (hstate : s.state ≠ .disposed) : s.disposedAt = none := by
  rcases hn : s.disposedAt with _ | n
  · rfl
  · exact absurd (h.disposed n hn).1 hstate

theorem exists_unique_pending (h : Timed s) (hheld : s.cancelScheduled ≠ none) :
    ∃! timer, Pending s timer := by
  obtain ⟨timer, htimer⟩ := Option.ne_none_iff_exists'.mp hheld
  refine ⟨timer, (h.scheduled timer).mpr htimer, fun other hother => ?_⟩
  have hsame := (h.scheduled other).mp hother
  rw [htimer, Option.some.injEq] at hsame
  exact hsame.symm

theorem Sound.begin (h : Sound s) (hstate : s.state = .streaming) :
    Sound (beginRecovery retryDelayMs s) := by
  have hfree : s.cancelScheduled = none := h.free (by simp [hstate])
  have hnew : s.disposedAt = none := h.undisposed (by simp [hstate])
  refine ⟨h.toTimed.begin hfree, fun _ => rfl, nofun, fun n hn => ?_, h.budget, h.refreshed⟩
  rw [show (beginRecovery retryDelayMs s).disposedAt = s.disposedAt from rfl, hnew] at hn
  cases hn

theorem scheduleConvergence_same (s : TerminalRecoveryController) :
    (scheduleConvergence s).cancelScheduled = s.cancelScheduled ∧
      (scheduleConvergence s).state = s.state ∧ (scheduleConvergence s).reported = s.reported ∧
      (scheduleConvergence s).asked = s.asked ∧ (scheduleConvergence s).answer = s.answer ∧
      (scheduleConvergence s).disposedAt = s.disposedAt ∧
      (scheduleConvergence s).reattaches = s.reattaches ∧
      (scheduleConvergence s).refreshes = s.refreshes ∧
      (scheduleConvergence s).convergenceAttempts = s.convergenceAttempts := by
  unfold scheduleConvergence
  dsimp only
  split_ifs <;> exact ⟨rfl, rfl, rfl, rfl, rfl, rfl, rfl, rfl, rfl⟩

theorem Sound.schedule (h : Sound s) : Sound (scheduleConvergence s) := by
  obtain ⟨hheld, hstate, hreported, hasked, hanswer, hdisposed, hreattaches, hrefreshes,
    hattempts⟩ := scheduleConvergence_same s
  refine ⟨h.toTimed.schedule, ?_, ?_, ?_, ?_, ?_⟩
  · rw [hheld, hstate]
    exact h.recovering
  · rw [hheld, hstate, hreported, hasked, hanswer]
    exact h.waiting
  · rw [hdisposed, hstate, hreattaches]
    exact h.disposed
  · rw [hrefreshes, hattempts]
    exact h.budget
  · rw [hrefreshes]
    exact h.refreshed

theorem new_sound : Sound .new := by
  refine ⟨⟨fun id t hid => ?_, fun id => ?_, nofun⟩, fun h => absurd rfl h, nofun, nofun, rfl,
    Nat.zero_le _⟩
  · simp [TerminalRecoveryController.new] at hid
  · simp [Pending, TerminalRecoveryController.new]

theorem Sound.keeps (h : Sound s) : Keeps ν retryDelayMs s where
  pending hstate := by
    by_cases hheld : s.cancelScheduled = none
    · exact .inr (h.waiting hstate hheld)
    · exact .inl (exists_unique_pending h.toTimed hheld)
  offered event hstate hskip := by
    have hboth : s.state = .streaming ∧ isRecoverableSkip event = true := ⟨hstate, hskip⟩
    rw [noteEvent, if_pos hboth]
    exact ⟨rfl, rfl, exists_unique_pending (h.begin hstate).toTimed nofun⟩
  disposed := h.disposed
  refreshed := h.refreshed

/-! ## Operations -/

theorem noteEvent_sound (h : Sound s) (event : TerminalStreamEvent ν) :
    Sound (noteEvent retryDelayMs s event).1 := by
  unfold noteEvent
  split_ifs with hboth
  · exact h.begin hboth.1
  · exact h

theorem clearConvergence_sound (h : Sound s) : Sound (clearConvergence s) := by
  have hend := h.toTimed.endConvergence
  exact ⟨⟨hend.numbered, hend.scheduled, hend.convergence⟩, h.recovering, h.waiting, h.disposed,
    rfl, Nat.zero_le _⟩

theorem noteStreamProgress_sound (h : Sound s) (event : TerminalStreamEvent ν) :
    Sound (noteStreamProgress s event) := by
  unfold noteStreamProgress
  split_ifs
  · exact h
  · split
    · exact clearConvergence_sound h
    · apply Sound.schedule
      exact ⟨⟨h.numbered, h.scheduled, h.convergence⟩, h.recovering, h.waiting, h.disposed,
        h.budget, h.refreshed⟩
    · exact h.schedule
    · exact h

theorem Sound.stream (h : Sound s) (hstate : s.state ≠ .disposed) :
    Sound { cancelPending s with state := .streaming } := by
  have hcancel := h.toTimed.cancelPending
  have hnew := h.undisposed hstate
  refine ⟨⟨hcancel.numbered, hcancel.scheduled, hcancel.convergence⟩, fun hheld => ?_, nofun,
    fun n hn => ?_, h.budget, h.refreshed⟩
  · exact absurd rfl hheld
  · exact absurd (hnew.symm.trans hn) nofun

theorem noteAttached_sound (h : Sound s) (fresh : Bool) : Sound (noteAttached s fresh) := by
  unfold noteAttached
  split_ifs with hdisposed
  · exact h
  · have hstream := h.stream hdisposed
    apply Sound.schedule
    exact ⟨⟨hstream.numbered, hstream.scheduled, hstream.convergence⟩, hstream.recovering, nofun,
      hstream.disposed, hstream.budget, hstream.refreshed⟩

theorem noteAttachFailed_sound (h : Sound s) : Sound (noteAttachFailed s) := by
  unfold noteAttachFailed
  split_ifs with hdisposed
  · exact h
  · have hstream := h.stream hdisposed
    exact ⟨⟨hstream.numbered, hstream.scheduled, hstream.convergence⟩, hstream.recovering, nofun,
      hstream.disposed, hstream.budget, hstream.refreshed⟩

theorem reset_sound (h : Sound s) (renewConvergenceBudget : Bool) :
    Sound (reset s renewConvergenceBudget) := by
  unfold reset
  split_ifs with hdisposed hrenew
  · exact h
  · have hstream := h.stream hdisposed
    have hend := hstream.toTimed.endConvergence
    exact ⟨⟨hend.numbered, hend.scheduled, hend.convergence⟩, hstream.recovering, nofun,
      hstream.disposed, rfl, Nat.zero_le _⟩
  · have hstream := h.stream hdisposed
    have hend := hstream.toTimed.endConvergence
    exact ⟨⟨hend.numbered, hend.scheduled, hend.convergence⟩, hstream.recovering, nofun,
      hstream.disposed, hstream.budget, hstream.refreshed⟩

theorem dispose_sound (h : Sound s) : Sound (dispose s) := by
  have hcancel := h.toTimed.cancelPending.endConvergence
  refine ⟨⟨hcancel.numbered, hcancel.scheduled, hcancel.convergence⟩, fun hheld => absurd rfl hheld,
    nofun, fun n hn => ⟨rfl, ?_⟩, rfl, Nat.zero_le _⟩
  change s.reattaches = n
  cases hn
  rcases hm : s.disposedAt with _ | m
  · rfl
  · exact (h.disposed m hm).2

theorem Sound.fired (h : Sound s) {timer : ℕ} {t : Timer} (ht : s.timers[timer]? = some t)
    (hrun : t.run ≠ .reattach) :
    Sound { s with timers := s.timers.erase timer, cancelConvergence := none } := by
  have hother : s.cancelScheduled ≠ some timer := by
    intro hheld
    have hpending := (h.scheduled timer).mpr hheld
    rw [Pending, ht, Option.map_some, Option.some.injEq] at hpending
    exact hrun hpending
  have htimed := h.toTimed.fired timer hother
  exact ⟨⟨htimed.numbered, htimed.scheduled, nofun⟩, h.recovering, h.waiting, h.disposed, h.budget,
    h.refreshed⟩

theorem fireQuiet_sound
    (h : Sound { s with cancelConvergence := none }) : Sound (fireQuiet s) := by
  unfold fireQuiet
  dsimp only
  split_ifs
  · exact ⟨⟨h.numbered, h.scheduled, h.convergence⟩, h.recovering, h.waiting, h.disposed, rfl,
      Nat.zero_le _⟩
  · exact h

theorem fireConvergence_sound
    (h : Sound { s with cancelConvergence := none }) : Sound (fireConvergence retryDelayMs s) := by
  have hbudget : s.refreshes = s.convergenceAttempts := h.budget
  unfold fireConvergence
  dsimp only
  split_ifs with hgap hspent
  · exact ⟨⟨h.numbered, h.scheduled, h.convergence⟩, h.recovering, h.waiting, h.disposed, h.budget,
      h.refreshed⟩
  · refine Sound.begin ?_ hgap.2.2
    refine ⟨⟨h.numbered, h.scheduled, h.convergence⟩, h.recovering, h.waiting, h.disposed, ?_, ?_⟩
    · exact congrArg (· + 1) hbudget
    · change s.refreshes + 1 ≤ 3
      omega
  · exact h

theorem fireReattach_sound (h : Sound s) {timer : ℕ} {t : Timer}
    (ht : s.timers[timer]? = some t) (hrun : t.run = .reattach) :
    Sound (fireReattach { s with timers := s.timers.erase timer }) := by
  have hheld : s.cancelScheduled = some timer :=
    (h.scheduled timer).mp (by rw [Pending, ht, Option.map_some, hrun])
  have hstate : s.state = .recovering := h.recovering (by simp [hheld])
  have htimed := h.toTimed.firedReattach timer hheld
  have hnew : s.disposedAt = none := h.undisposed (by simp [hstate])
  unfold fireReattach
  dsimp only
  rw [if_pos hstate]
  refine ⟨⟨htimed.numbered, htimed.scheduled, htimed.convergence⟩, fun hfree => absurd rfl hfree,
    fun _ _ => ⟨rfl, .inl rfl⟩, fun n hn => ?_, h.budget, h.refreshed⟩
  exact absurd (hnew.symm.trans hn) nofun

theorem fire_sound (h : Sound s) (timer : ℕ) :
    Sound (fire retryDelayMs s timer) := by
  unfold fire
  split
  · exact h
  · rename_i t ht
    dsimp only
    split
    · rename_i hrun
      exact fireReattach_sound h ht hrun
    · rename_i hrun
      exact fireQuiet_sound (h.fired ht (by simp [hrun]))
    · rename_i hrun
      exact fireConvergence_sound (h.fired ht (by simp [hrun]))

theorem answered_sound (h : Sound s) (outcome : TerminalRecoveryAttemptOutcome)
    (hsteady : outcome ≠ .attaching → s.state ≠ .disposed ∧ s.cancelScheduled = none) :
    Sound (answered s outcome) := by
  unfold answered
  dsimp only
  split_ifs with houtcome
  · refine ⟨⟨h.numbered, h.scheduled, h.convergence⟩, h.recovering, fun hstate hfree => ?_, h.disposed, h.budget, h.refreshed⟩
    exact ⟨(h.waiting hstate hfree).1, .inr (by rw [houtcome])⟩
  · obtain ⟨hstate, hfree⟩ := hsteady houtcome
    have hnew := h.undisposed hstate
    refine ⟨⟨h.numbered, h.scheduled, h.convergence⟩, fun hheld => absurd hfree hheld, nofun,
      fun n hn => ?_, h.budget, h.refreshed⟩
    exact absurd (hnew.symm.trans hn) nofun

/-! ## Runs -/

theorem step_sound (h : Sound s) (moment : Moment ν) (hsteady : Steady s moment) :
    Sound (step retryDelayMs s moment) := by
  cases moment with
  | noteEvent event => exact noteEvent_sound h event
  | noteStreamProgress event => exact noteStreamProgress_sound h event
  | noteAttached fresh => exact noteAttached_sound h fresh
  | noteAttachFailed => exact noteAttachFailed_sound h
  | reset renewConvergenceBudget => exact reset_sound h renewConvergenceBudget
  | dispose => exact dispose_sound h
  | fire timer =>
    simp only [step]
    split_ifs
    · exact h
    · exact fire_sound h timer
  | answer outcome =>
    simp only [step]
    split_ifs with hasked
    · exact answered_sound h outcome (hsteady hasked)
    · exact h

theorem recovery_runs (retryDelayMs : ℕ) (moments : List (Moment ν))
    (h : Runs.Meets (step retryDelayMs) Steady TerminalRecoveryController.new moments) :
    Keeps ν retryDelayMs (Runs.after (step retryDelayMs) TerminalRecoveryController.new moments) := by
  have hrun : Sound (Runs.after (step retryDelayMs) TerminalRecoveryController.new moments) :=
    Runs.invariant_of_meets (I := Sound) (fun s moment hs hsteady => step_sound hs moment hsteady)
      new_sound h
  exact hrun.keeps

def declinedAttempt : List (Moment ℤ) :=
  [.noteEvent (.skip 0 10 .congestion), .fire 0, .answer .attaching, .noteAttachFailed,
    .noteEvent (.skip 10 20 .congestion), .fire 1, .answer .declined]

theorem recovery_runs_declined :
    Keeps ℤ 250 (Runs.after (step 250) TerminalRecoveryController.new declinedAttempt) :=
  recovery_runs 250 declinedAttempt (by decide +kernel)

def disposedWhileAsked : List (Moment ℤ) :=
  [.noteEvent (.skip 0 10 .congestion), .fire 0, .dispose, .answer .declined]

theorem disposed_controller_streams :
    ¬ Keeps ℤ 250 (Runs.after (step 250) TerminalRecoveryController.new disposedWhileAsked) := by
  have hat : (Runs.after (step 250) TerminalRecoveryController.new
      disposedWhileAsked).disposedAt = some 1 := by decide +kernel
  have hstate : (Runs.after (step 250) TerminalRecoveryController.new
      disposedWhileAsked).state = .streaming := by decide +kernel
  intro h
  have hdisposed := (h.disposed 1 hat).1
  rw [hstate] at hdisposed
  cases hdisposed

end Terminay.Client.Recovery
