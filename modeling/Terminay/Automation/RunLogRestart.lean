import Terminay.Automation.RunLogMutate

/-!
# The run log after a restart

What a resolved mutation left in memory is what a new log loads, as long as every commit
succeeds, a forgotten automation has a missed record, and the counts stay counts.
-/

namespace Terminay.Automation
open Script

namespace RunLog

variable {options : LogOptions} {log : RunLog}

def Same (a b : RunLog) : Prop :=
  ∀ id, a.runsOf id = b.runsOf id ∧ a.missed.get id = b.missed.get id ∧
    a.pruneChoices.get id = b.pruneChoices.get id

def Restores (options : LogOptions) (stored : Option RunLogState) (log : RunLog) : Prop :=
  ∀ id, (load options stored).runsOf id = (log.runsOf id).map stoppedRun ∧
    (load options stored).missed.get id = log.missed.get id ∧
    (load options stored).pruneChoices.get id = log.pruneChoices.get id

theorem Restores.same {stored : Option RunLogState} {a b : RunLog}
    (h : Restores options stored a) (hsame : b.Same a) : Restores options stored b := by
  intro id
  obtain ⟨hruns, hmissed, hchoices⟩ := hsame id
  rw [hruns, hmissed, hchoices]
  exact h id

structure Listed (options : LogOptions) (automationId : Str) (entries : List RunEntry) : Prop where
  bounded : options.limit = 0 ∨ entries.length ≤ options.limit
  entry : ∀ entry ∈ entries, entry.automationId = automationId ∧
    entry.Normal options.outputTailBytes

structure Sound (options : LogOptions) (log : RunLog) : Prop where
  runs : ∀ id entries, log.runs.get id = some entries → Listed options id entries
  missed : ∀ id m, log.missed.get id = some m → m.automationId = id ∧ isMissed m = true
  choices : ∀ id days, log.pruneChoices.get id = some days → isId id = true ∧ isDays days 0 = true

theorem Listed.nil {id : Str} : Listed options id [] :=
  ⟨.inr (Nat.zero_le _), fun entry h => (by cases h)⟩

theorem Sound.listed (h : log.Sound options) (id : Str) : Listed options id (log.runsOf id) := by
  rw [runsOf]
  rcases hget : log.runs.get id with _ | entries
  · exact .nil
  · exact h.runs id entries hget

theorem stoppedRun_normal {tailBytes : ℕ} {entry : RunEntry} (h : entry.Normal tailBytes) :
    (stoppedRun entry).Normal tailBytes ∧ (stoppedRun entry).automationId = entry.automationId := by
  rw [stoppedRun]
  split_ifs
  · have hreason : ∀ reason ∈ some (js "the server stopped during the run"),
        reason.length ≤ maxReasonLength := by
      intro reason hmem
      cases hmem
      decide
    exact ⟨{ h with reason := hreason }, rfl⟩
  · exact ⟨h, rfl⟩

theorem stoppedRun_self (entry : RunEntry) : stoppedRun (stoppedRun entry) = stoppedRun entry := by
  by_cases hrunning : entry.status = .running
  · simp [stoppedRun, hrunning]
  · simp [stoppedRun, hrunning]

theorem loadEntry_some {tailBytes : ℕ} {id : Str} {candidate entry : RunEntry}
    (h : loadEntry tailBytes id candidate = some entry) :
    (entry.automationId = id ∧ entry.Normal tailBytes) ∧ stoppedRun entry = entry := by
  unfold loadEntry at h
  split at h
  · next kept hkept =>
    split_ifs at h with hid
    cases h
    obtain ⟨hnormal, hsame⟩ := stoppedRun_normal (normalizeEntry_normal hkept).1
    exact ⟨⟨hsame.trans hid, hnormal⟩, stoppedRun_self kept⟩
  · cases h

theorem loadEntry_normal {tailBytes : ℕ} {id : Str} {entry : RunEntry}
    (hid : entry.automationId = id) (h : entry.Normal tailBytes) :
    loadEntry tailBytes id entry = some (stoppedRun entry) := by
  rw [loadEntry, h.normalize]
  exact if_pos hid

theorem Listed.load {id : Str} {entries : List RunEntry} (h : Listed options id entries) :
    (loadRuns options id entries).getD [] = entries.map stoppedRun := by
  have hall : entries.filterMap (loadEntry options.outputTailBytes id) = entries.map stoppedRun := by
    rw [← List.filterMap_eq_map]
    apply List.filterMap_congr
    intro entry hmem
    obtain ⟨hid, hnormal⟩ := h.entry entry hmem
    exact loadEntry_normal hid hnormal
  unfold loadRuns
  rw [hall]
  rcases entries with _ | ⟨entry, entries⟩
  · rfl
  · have hbounded : options.limit = 0 ∨
        ((entry :: entries).map stoppedRun).length ≤ options.limit := by
      rw [List.length_map]
      exact h.bounded
    exact sliceLast_of_le hbounded

theorem loadRuns_listed {id : Str} {entries kept : List RunEntry}
    (h : loadRuns options id entries = some kept) :
    Listed options id kept ∧ kept.map stoppedRun = kept := by
  unfold loadRuns at h
  split at h
  · cases h
  · cases h
    have hmem : ∀ entry ∈ sliceLast options.limit
        (entries.filterMap (loadEntry options.outputTailBytes id)), ∃ candidate ∈ entries,
        loadEntry options.outputTailBytes id candidate = some entry := fun entry hentry =>
      List.mem_filterMap.mp ((sliceLast_sublist options.limit _).subset hentry)
    refine ⟨⟨?_, fun entry hentry => ?_⟩, ?_⟩
    · rcases Nat.eq_zero_or_pos options.limit with hzero | hpos
      · exact .inl hzero
      · exact .inr (sliceLast_length hpos _)
    · obtain ⟨candidate, -, hload⟩ := hmem entry hentry
      exact (loadEntry_some hload).1
    · refine (List.map_congr_left fun entry hentry => ?_).trans (List.map_id _)
      obtain ⟨candidate, -, hload⟩ := hmem entry hentry
      exact (loadEntry_some hload).2

theorem empty_sound : empty.Sound options := by
  refine ⟨fun id entries h => ?_, fun id m h => ?_, fun id days h => ?_⟩
  · cases h
  · cases h
  · cases h

theorem load_sound (stored : Option RunLogState) : (load options stored).Sound options := by
  rcases stored with _ | state
  · exact empty_sound
  · refine ⟨fun id entries h => ?_, fun id m h => ?_, fun id days h => ?_⟩
    · rw [load, OrderedMap.get_filterMap] at h
      obtain ⟨found, -, hload⟩ := Option.bind_eq_some_iff.mp h
      exact (loadRuns_listed hload).1
    · obtain ⟨found, hfound, heq⟩ := List.mem_map.mp (OrderedMap.mem_of_get_ofList h)
      cases heq
      exact ⟨rfl, (List.mem_filter.mp hfound).2⟩
    · rw [load, OrderedMap.get_filterMap] at h
      obtain ⟨found, -, hload⟩ := Option.bind_eq_some_iff.mp h
      unfold loadChoice at hload
      split_ifs at hload with hvalid
      cases hload
      exact Bool.and_eq_true_iff.mp hvalid

/-- A log just loaded is loaded again as it is. -/
theorem load_restores (stored : Option RunLogState) :
    Restores options stored (load options stored) := by
  intro id
  refine ⟨?_, rfl, rfl⟩
  rcases stored with _ | state
  · rfl
  · rw [load, runsOf, OrderedMap.get_filterMap]
    rcases hload : (state.runs.get id).bind (loadRuns options id) with _ | kept
    · rfl
    · obtain ⟨found, -, hkept⟩ := Option.bind_eq_some_iff.mp hload
      exact (loadRuns_listed hkept).2.symm

theorem listMissed_keys (log : RunLog) :
    ((log.listMissed.map fun m => (m.automationId, m)).Perm
      (log.missed.values.map fun m => (m.automationId, m))) :=
  (List.perm_insertionSort _ _).map _

theorem Sound.restores (h : log.Sound options) : Restores options (some log.snapshot) log := by
  intro id
  refine ⟨?_, ?_, ?_⟩
  · rw [load, runsOf, OrderedMap.get_filterMap]
    show ((log.runs.get id).bind (loadRuns options id)).getD [] = _
    rw [runsOf]
    rcases hget : log.runs.get id with _ | entries
    · rfl
    · exact (h.runs id entries hget).load
  · have hentries : log.missed.values.map (fun m => (m.automationId, m)) = log.missed.entries := by
      rw [OrderedMap.values, List.map_map]
      refine (List.map_congr_left fun e he => ?_).trans (List.map_id _)
      obtain ⟨key, m⟩ := e
      have hkey := (h.missed key m (OrderedMap.get_eq_some.mpr he)).1
      exact Prod.ext hkey rfl
    have hvalid : log.listMissed.filter isMissed = log.listMissed := by
      apply List.filter_eq_self.mpr
      intro m hm
      have hvalues := (List.perm_insertionSort _ _).mem_iff.mp hm
      obtain ⟨e, he, rfl⟩ := List.mem_map.mp hvalues
      exact (h.missed e.1 e.2 (OrderedMap.get_eq_some.mpr he)).2
    have hperm := log.listMissed_keys
    rw [hentries] at hperm
    have hnodup : (Entries.keys (log.listMissed.map fun m => (m.automationId, m))).Nodup :=
      (hperm.map Prod.fst).nodup_iff.mpr log.missed.nodup
    show (OrderedMap.ofList ((log.listMissed.filter isMissed).map _)).get id = _
    rw [hvalid, OrderedMap.get_ofList hnodup, Entries.get_perm hperm hnodup]
    rfl
  · rw [load, OrderedMap.get_filterMap]
    show (log.pruneChoices.get id).bind (loadChoice id) = _
    rcases hget : log.pruneChoices.get id with _ | days
    · rfl
    · obtain ⟨hid, hdays⟩ := h.choices id days hget
      rw [Option.bind_some, loadChoice, hid, hdays]
      rfl

theorem Sound.setRuns (h : log.Sound options) {id : Str} {entries : List RunEntry}
    (hlisted : Listed options id entries) :
    ({ log with runs := log.runs.set id entries } : RunLog).Sound options := by
  refine ⟨fun other found hget => ?_, h.missed, h.choices⟩
  simp only [OrderedMap.get_set] at hget
  split_ifs at hget with hother
  · cases hget
    rw [hother]
    exact hlisted
  · exact h.runs other found hget

theorem Sound.deleteRuns (h : log.Sound options) (id : Str) :
    ({ log with runs := log.runs.delete id } : RunLog).Sound options := by
  refine ⟨fun other found hget => ?_, h.missed, h.choices⟩
  simp only [OrderedMap.get_delete] at hget
  split_ifs at hget with hother
  exact h.runs other found hget

theorem Sound.putRuns (h : log.Sound options) {id : Str} {entries : List RunEntry}
    (hlisted : Listed options id entries) :
    ({ log with runs := if entries = [] then log.runs.delete id
                        else log.runs.set id entries } : RunLog).Sound options := by
  by_cases hempty : entries = []
  · simp only [if_pos hempty]
    exact h.deleteRuns id
  · simp only [if_neg hempty]
    exact h.setRuns hlisted

theorem Listed.sublist {id : Str} {entries kept : List RunEntry} (h : Listed options id entries)
    (hsub : kept.Sublist entries) : Listed options id kept :=
  ⟨h.bounded.imp_right hsub.length_le.trans, fun entry hmem => h.entry entry (hsub.subset hmem)⟩

theorem Listed.setEntry {id : Str} {entries : List RunEntry} (h : Listed options id entries)
    (index : ℕ) {next : RunEntry} (hid : next.automationId = id)
    (hnext : next.Normal options.outputTailBytes) : Listed options id (entries.set index next) := by
  refine ⟨?_, fun entry hmem => ?_⟩
  · rw [List.length_set]
    exact h.bounded
  · rcases List.mem_or_eq_of_mem_set hmem with hold | rfl
    · exact h.entry entry hold
    · exact ⟨hid, hnext⟩

theorem Listed.put {id : Str} {entries : List RunEntry} (h : Listed options id entries)
    {entry : RunEntry} (hid : entry.automationId = id)
    (hentry : entry.Normal options.outputTailBytes) :
    Listed options id ((putEntry entries entry).2.drop
      ((putEntry entries entry).2.length - options.limit)) := by
  have hall : ∀ e ∈ (putEntry entries entry).2, e.automationId = id ∧
      e.Normal options.outputTailBytes := by
    unfold putEntry
    simp only
    split
    · intro e he
      rcases List.mem_append.mp he with hold | hnew
      · exact h.entry e hold
      · rw [List.mem_singleton.mp hnew]
        exact ⟨hid, hentry⟩
    · next earlier _ =>
      have hmerged := hentry.merge earlier.openedSessions
      have hsame : (mergeOpenedSessions entry earlier.openedSessions).automationId = id := by
        rw [mergeOpenedSessions]
        split_ifs
        · exact hid
        · exact hid
      exact (h.setEntry _ hsame hmerged).entry
  refine ⟨.inr ?_, fun e he => hall e (List.mem_of_mem_drop he)⟩
  rw [List.length_drop]
  omega

theorem owner_get {runId id : Str} {entries : List RunEntry}
    (h : log.owner runId = some (id, entries)) : log.runs.get id = some entries :=
  OrderedMap.get_eq_some.mpr (List.mem_of_find?_eq_some h)

theorem Sound.owner (h : log.Sound options) {runId id : Str} {entries : List RunEntry}
    (howner : log.owner runId = some (id, entries)) : Listed options id entries :=
  h.runs id entries (owner_get howner)

theorem Sound.addOpenedSession (h : log.Sound options) (runId sessionId : Str) :
    (log.addOpenedSession runId sessionId).log.Sound options := by
  unfold RunLog.addOpenedSession
  split
  · exact h
  · next id entries howner =>
    have hlisted := h.owner howner
    simp only
    split
    · exact h
    · next current hcurrent =>
      split_ifs
      · exact h
      · obtain ⟨hid, hnormal⟩ := hlisted.entry current (List.mem_of_getElem? hcurrent)
        have hsame : (withOpenedSessions current [sessionId]).automationId = id := by
          rw [withOpenedSessions, if_neg (by simp)]
          exact hid
        exact h.setRuns (hlisted.setEntry _ hsame (hnormal.opened [sessionId]))

theorem Sound.record (h : log.Sound options) {entry : RunEntry} {applied : Applied}
    (happlied : log.record options entry = .ok applied) : applied.log.Sound options := by
  unfold RunLog.record at happlied
  split at happlied
  · cases happlied
  · next normalized hnormalized =>
    cases happlied
    exact h.setRuns ((h.listed _).put rfl (normalizeEntry_normal hnormalized).1)

theorem Sound.addSuppressed (h : log.Sound options) {id : Str} {count : ℤ}
    (hcount : ∀ current ∈ (log.runsOf id)[(log.runsOf id).length - 1]?,
      isCount (current.suppressedEvents + max 0 count) = true) :
    (log.addSuppressed id count).log.Sound options := by
  unfold RunLog.addSuppressed
  simp only
  split
  · exact h
  · next current hlast =>
    have hlisted := h.listed id
    obtain ⟨hid, hnormal⟩ := hlisted.entry current (List.mem_of_getElem? hlast)
    exact h.setRuns (hlisted.setEntry _ hid (hnormal.suppressed (hcount current hlast)))

theorem Sound.remove (h : log.Sound options) {runId : Str} {applied : Applied}
    (happlied : log.remove runId = .ok applied) : applied.log.Sound options := by
  unfold RunLog.remove at happlied
  split at happlied
  · cases happlied
  · next id entries howner =>
    simp only at happlied
    split at happlied
    · cases happlied
    · next entry hentry =>
      by_cases hrunning : entry.status = .running
      · rw [if_pos hrunning] at happlied
        cases happlied
      · rw [if_neg hrunning] at happlied
        cases happlied
        exact h.putRuns ((h.owner howner).sublist (List.eraseIdx_sublist entries _))

theorem Sound.recordMissed (h : log.Sound options) {id : Str} {missedCount latestDueAt : ℤ}
    (hnext : isMissed (log.nextMissed id missedCount latestDueAt) = true) :
    (log.recordMissed id missedCount latestDueAt).log.Sound options := by
  unfold RunLog.recordMissed
  split_ifs
  · exact h
  · refine ⟨h.runs, fun other m hget => ?_, h.choices⟩
    simp only [OrderedMap.get_set] at hget
    split_ifs at hget with hother
    · cases hget
      exact ⟨hother.symm, hnext⟩
    · exact h.missed other m hget

theorem Sound.deleteMissed (h : log.Sound options) (id : Str) :
    ∀ other m, (log.missed.delete id).get other = some m →
      m.automationId = other ∧ isMissed m = true := by
  intro other m hget
  rw [OrderedMap.get_delete] at hget
  split_ifs at hget
  exact h.missed other m hget

theorem Sound.dismissMissed (h : log.Sound options) (id : Option Str) :
    (log.dismissMissed id).log.Sound options := by
  rcases id with _ | id
  · exact ⟨h.runs, fun other m hget => (by cases hget), h.choices⟩
  · exact ⟨h.runs, h.deleteMissed id, h.choices⟩

theorem Sound.prune (h : log.Sound options) {id : Str} {now days : ℤ} (hid : isId id = true)
    (hdays : isDays days 0 = true) : (log.prune now id days).log.Sound options := by
  have hruns := h.putRuns ((h.listed id).sublist
    (List.filter_sublist (p := fun entry => !isPruned now days entry)))
  refine ⟨hruns.runs, h.missed, fun other found hget => ?_⟩
  simp only [RunLog.prune, OrderedMap.get_set] at hget
  split_ifs at hget with hother
  · cases hget
    rw [hother]
    exact ⟨hid, hdays⟩
  · exact h.choices other found hget

theorem Sound.forget (h : log.Sound options) (id : Str) : (log.forget id).log.Sound options := by
  refine ⟨(h.deleteRuns id).runs, h.deleteMissed id, fun other found hget => ?_⟩
  simp only [RunLog.forget, OrderedMap.get_delete] at hget
  split_ifs at hget
  exact h.choices other found hget

theorem Sound.purgeExpired (h : log.Sound options) (retention : Str → Option ℤ) (now : ℤ) :
    (log.purgeExpired retention now).Sound options := by
  refine ⟨fun id kept hget => ?_, h.missed, h.choices⟩
  simp only [RunLog.purgeExpired, OrderedMap.get_filterMap] at hget
  obtain ⟨entries, hentries, hpurge⟩ := Option.bind_eq_some_iff.mp hget
  have hlisted := h.runs id entries hentries
  unfold purgeRuns at hpurge
  split_ifs at hpurge
  · split at hpurge
    · cases hpurge
    · cases hpurge
      exact hlisted.sublist List.filter_sublist
  · cases hpurge
    exact hlisted

end RunLog

/-- What a mutation would keep is what a restart loads: counts stay counts, and automations are
named by identifiers. -/
def Mutation.Fits (log : RunLog) : Mutation → Prop
  | .addSuppressed automationId count =>
    ∀ current ∈ (log.runsOf automationId)[(log.runsOf automationId).length - 1]?,
      isCount (current.suppressedEvents + max 0 count) = true
  | .recordMissed automationId missedCount latestDueAt =>
    RunLog.isMissed (log.nextMissed automationId missedCount latestDueAt) = true
  | .prune automationId _ => isId automationId = true
  | _ => True

namespace RunLog

variable {options : LogOptions} {log : RunLog}

theorem Sound.operate (h : log.Sound options) {now : ℤ} {mutation : Mutation} {applied : Applied}
    (happlied : log.operate options now mutation = .ok applied) (hfits : mutation.Fits log)
    (hrefused : mutation.isRefused = false) : applied.log.Sound options := by
  cases mutation with
  | record entry => exact h.record happlied
  | addOpenedSession runId sessionId =>
    cases happlied
    exact h.addOpenedSession runId sessionId
  | addSuppressed id count =>
    cases happlied
    exact h.addSuppressed hfits
  | recordMissed id missedCount latestDueAt =>
    cases happlied
    exact h.recordMissed hfits
  | dismissMissed id =>
    cases happlied
    exact h.dismissMissed id
  | remove runId => exact h.remove happlied
  | prune id days =>
    cases happlied
    exact h.prune hfits (by simpa [Mutation.isRefused] using hrefused)
  | forget id =>
    cases happlied
    exact h.forget id
  | applyRetention =>
    cases happlied
    exact h

end RunLog

end Terminay.Automation
