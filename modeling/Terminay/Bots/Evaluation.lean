import Terminay.Bots.Observation

/-!
# What an evaluation does to a checkpoint

An evaluation that succeeds keeps what is remembered, remembers every identity it meets, and
answers events only for identities that were new.
-/

namespace Terminay.Bots
open Script Outcome

variable {ν : Type} [Engine ν]

def identities (events : List (SourceEvent ν)) : List Str := events.filterMap SourceEvent.identity

structure Remembers (previous : SourceCheckpoint) (seen : Seen ν) : Prop where
  generation : seen.checkpoint.generation = previous.generation
  sequence : seen.checkpoint.sequence = previous.sequence
  resumes : seen.checkpoint.resumeBaseline = previous.resumeBaseline
  kept : previous.ids ⊆ seen.checkpoint.ids
  present : seen.present ⊆ seen.checkpoint.ids
  fresh : ∀ id ∈ identities seen.events, id ∉ previous.ids ∧ id ∈ seen.present
  distinct : (identities seen.events).Nodup

section Scans

variable {scan next : Scan ν} {identity : Str} {speaks : Bool}

structure Scanned (before : List Str) (scan : Scan ν) : Prop where
  kept : before ⊆ scan.ids
  met : scan.met ⊆ scan.ids
  fresh : ∀ id ∈ identities scan.events, id ∉ before ∧ id ∈ scan.met
  distinct : (identities scan.events).Nodup

theorem Scanned.item {before : List Str} {item : Json ν} (h : Scanned before scan)
    (hstep : scanItem identity speaks scan item = .ok next) : Scanned before next := by
  unfold scanItem at hstep
  obtain ⟨v, -, hstep⟩ := bind_ok.mp hstep
  obtain ⟨_, -, hstep⟩ := bind_ok.mp hstep
  obtain ⟨_, hnew, hstep⟩ := bind_ok.mp hstep
  have hunmet : canonical v ∉ scan.met := fun hmet => refuseIf_ok.mp hnew (.inr hmet)
  by_cases hknown : canonical v ∈ scan.ids
  · rw [if_pos hknown] at hstep
    cases hstep
    refine ⟨h.kept, ?_, fun id hid => ?_, h.distinct⟩
    · intro id hid
      rcases List.mem_append.mp hid with hid | hid
      · exact h.met hid
      · rw [List.mem_singleton.mp hid]
        exact hknown
    · obtain ⟨hfresh, hmet⟩ := h.fresh id hid
      exact ⟨hfresh, List.mem_append_left _ hmet⟩
  · rw [if_neg hknown] at hstep
    cases hstep
    refine ⟨fun id hid => List.mem_append_left _ (h.kept hid), ?_, ?_, ?_⟩
    · intro id hid
      rcases List.mem_append.mp hid with hid | hid
      · exact List.mem_append_left _ (h.met hid)
      · exact List.mem_append_right _ hid
    · intro id hid
      simp only at hid
      split_ifs at hid
      · rw [identities, List.filterMap_append, List.mem_append] at hid
        rcases hid with hid | hid
        · obtain ⟨hfresh, hmet⟩ := h.fresh id hid
          exact ⟨hfresh, List.mem_append_left _ hmet⟩
        · have heq : id = canonical v := by simpa using hid
          rw [heq]
          exact ⟨fun hbefore => hknown (h.kept hbefore), by simp⟩
      · obtain ⟨hfresh, hmet⟩ := h.fresh id hid
        exact ⟨hfresh, List.mem_append_left _ hmet⟩
    · simp only
      split_ifs
      · rw [identities, List.filterMap_append]
        refine List.nodup_append.mpr ⟨h.distinct, by simp, ?_⟩
        intro id hid other hother heq
        have hsame : other = canonical v := by simpa using hother
        rw [heq, hsame] at hid
        exact hunmet (h.fresh _ hid).2
      · exact h.distinct

theorem Scanned.items {before : List Str} {items : List (Json ν)} (h : Scanned before scan)
    (hscan : scanItems identity speaks scan items = .ok next) : Scanned before next := by
  induction items generalizing scan with
  | nil =>
    cases hscan
    exact h
  | cons item items ih =>
    obtain ⟨middle, hitem, hrest⟩ := bind_ok.mp hscan
    exact ih (h.item hitem) hrest

theorem scanItems_silent {items : List (Json ν)}
    (hscan : scanItems identity false scan items = .ok next) : next.events = scan.events := by
  induction items generalizing scan with
  | nil =>
    cases hscan
    rfl
  | cons item items ih =>
    obtain ⟨middle, hitem, hrest⟩ := bind_ok.mp hscan
    rw [ih hrest]
    unfold scanItem at hitem
    obtain ⟨v, -, hitem⟩ := bind_ok.mp hitem
    obtain ⟨_, -, hitem⟩ := bind_ok.mp hitem
    obtain ⟨_, -, hitem⟩ := bind_ok.mp hitem
    by_cases hknown : canonical v ∈ scan.ids
    · rw [if_pos hknown] at hitem
      cases hitem
      rfl
    · rw [if_neg hknown] at hitem
      cases hitem
      simp

end Scans

section Parsing

variable {value : Json ν} {o : Observation ν}

omit [Engine ν] in
theorem textField_bound {fields : List (Str × Json ν)} {key : String} {limit : ℕ} {s : Option Str}
    (h : textField fields key limit = .ok s) : ∀ x ∈ s, utf8Length x ≤ limit := by
  intro x hx
  unfold textField at h
  split at h
  · cases h
    cases hx
  · split_ifs at h with hlimit
    cases h
    cases hx
    omega
  · cases h

theorem snapshotField_valid {fields : List (Str × Json ν)} {snapshot : Option (List (Str × Str))}
    (h : snapshotField fields = .ok snapshot) : ∀ x ∈ snapshot, IsSnapshot (ν := ν) x := by
  intro x hx
  unfold snapshotField at h
  split at h
  · cases h
    cases hx
  · obtain ⟨entries, -, h⟩ := bind_ok.mp h
    split at h
    · cases h
    · split_ifs at h with hvalid
      cases h
      cases hx
      exact hvalid.1

theorem parse_bounds (h : parseObservation value = .ok o) :
    (∀ id ∈ o.eventId, utf8Length id ≤ 4096) ∧ ∀ x ∈ o.snapshot, IsSnapshot (ν := ν) x := by
  unfold parseObservation at h
  obtain ⟨fields, -, h⟩ := bind_ok.mp h
  obtain ⟨_, -, h⟩ := bind_ok.mp h
  obtain ⟨_, -, h⟩ := bind_ok.mp h
  obtain ⟨_, -, h⟩ := bind_ok.mp h
  obtain ⟨_, -, h⟩ := bind_ok.mp h
  obtain ⟨eventId, hevent, h⟩ := bind_ok.mp h
  obtain ⟨_, -, h⟩ := bind_ok.mp h
  obtain ⟨_, -, h⟩ := bind_ok.mp h
  obtain ⟨_, -, h⟩ := bind_ok.mp h
  obtain ⟨_, -, h⟩ := bind_ok.mp h
  obtain ⟨_, -, h⟩ := bind_ok.mp h
  obtain ⟨snapshot, hsnapshot, h⟩ := bind_ok.mp h
  obtain ⟨_, -, h⟩ := bind_ok.mp h
  cases h
  exact ⟨textField_bound hevent, snapshotField_valid hsnapshot⟩

end Parsing

section Sources

variable {next : SourceCheckpoint} {o : Observation ν} {seen : Seen ν}

section

omit [Engine ν]

theorem Remembers.same {events : List (SourceEvent ν)} (next cp : SourceCheckpoint)
    (hgeneration : cp.generation = next.generation) (hsequence : cp.sequence = next.sequence)
    (hresumes : cp.resumeBaseline = next.resumeBaseline) (hids : cp.ids = next.ids)
    (hevents : identities events = []) : Remembers next ⟨cp, events, []⟩ := by
  refine ⟨hgeneration, hsequence, hresumes, ?_, List.nil_subset _, ?_, ?_⟩
  · simp only [hids]
    exact List.Subset.refl _
  · intro id hid
    rw [hevents] at hid
    cases hid
  · rw [hevents]
    exact List.nodup_nil

theorem identities_plain (c : Prop) [Decidable c] (payload : Json ν) :
    identities (if c then [⟨payload, none⟩] else []) = [] := by
  split_ifs
  · rfl
  · rfl

theorem evaluateSse_remembers (next : SourceCheckpoint) (o : Observation ν) :
    Remembers next (evaluateSse next o) := by
  unfold evaluateSse
  simp only
  split_ifs with hfiltered
  · exact Remembers.same next _ rfl rfl rfl rfl rfl
  · rcases nonempty o.eventId with _ | id
    · exact Remembers.same next _ rfl rfl rfl rfl rfl
    · simp only
      split_ifs with hknown
      · refine ⟨rfl, rfl, rfl, List.Subset.refl _, ?_, fun id hid => (by cases hid), List.nodup_nil⟩
        intro x hx
        rw [List.mem_singleton.mp hx]
        exact hknown
      · refine ⟨rfl, rfl, rfl, List.subset_append_left _ _, List.subset_append_right _ _, ?_, ?_⟩
        · intro x hx
          have heq : x = id := by simpa [identities] using hx
          rw [heq]
          exact ⟨hknown, List.mem_singleton_self id⟩
        · simp [identities]

end

theorem evaluateFiles_remembers (next : SourceCheckpoint) (o : Observation ν) :
    Remembers next (evaluateFiles next o) := by
  apply Remembers.same
  · rfl
  · rfl
  · rfl
  · rfl
  · unfold filesEvents
    split_ifs
    · rfl
    · split
      · rfl
      · split_ifs
        · rfl
        · rfl
      · rfl

theorem evaluateItems_remembers {parsed : Json ν} {items identity : Str}
    {initial : Option BotInitialObservation}
    (h : evaluateItems next parsed items identity initial = .ok seen) : Remembers next seen := by
  unfold evaluateItems at h
  obtain ⟨selected, -, h⟩ := bind_ok.mp h
  obtain ⟨list, -, h⟩ := bind_ok.mp h
  obtain ⟨scan, hscan, h⟩ := bind_ok.mp h
  cases h
  have hstart : Scanned next.ids (⟨[], next.ids, []⟩ : Scan ν) :=
    ⟨List.Subset.refl _, List.nil_subset _, fun id hid => (by cases hid), List.nodup_nil⟩
  have hend := hstart.items hscan
  exact ⟨rfl, rfl, rfl, hend.kept, hend.met, hend.fresh, hend.distinct⟩

theorem evaluateItems_baseline {parsed : Json ν} {items identity : Str}
    (hinitial : next.initialized = false)
    (h : evaluateItems next parsed items identity (some .baseline) = .ok seen) :
    seen.events = [] := by
  unfold evaluateItems at h
  obtain ⟨selected, -, h⟩ := bind_ok.mp h
  obtain ⟨list, -, h⟩ := bind_ok.mp h
  obtain ⟨scan, hscan, h⟩ := bind_ok.mp h
  cases h
  have hsilent : (next.initialized || decide (some BotInitialObservation.baseline ≠
      some .baseline)) = false := by
    simp [hinitial]
  rw [hsilent] at hscan
  exact scanItems_silent hscan

theorem evaluateMatching_remembers (raw : Str) (matching repeated : Bool) :
    Remembers next (evaluateMatching next o raw matching repeated) := by
  apply Remembers.same
  · rfl
  · rfl
  · rfl
  · rfl
  · exact identities_plain _ _

variable {parse : Str → Option (Json ν)} {sha256 : Str → Digest}

theorem lift_ok {α : Type} {x : Except BotError α} {a : α} : lift x = .ok a ↔ x = .ok a := by
  cases x with
  | error e => simp [lift, Except.mapError]
  | ok b => simp [lift, Except.mapError]

theorem evaluateMatch_remembers {matching : BotSourceMatch} {raw : Str} {value : Json ν}
    {canonicalized : Bool}
    (h : evaluateMatch parse sha256 next o matching raw value canonicalized = .ok seen) :
    Remembers next seen := by
  cases matching with
  | items items identity initial =>
    obtain ⟨parsed, -, h⟩ := bind_ok.mp h
    exact evaluateItems_remembers (lift_ok.mp h)
  | changed =>
    cases h
    apply Remembers.same
    · rfl
    · rfl
    · rfl
    · rfl
    · exact identities_plain _ _
  | exit code repeated =>
    cases h
    exact evaluateMatching_remembers _ _ _
  | contains text repeated =>
    cases h
    exact evaluateMatching_remembers _ _ _
  | regex text repeated =>
    cases h
    exact evaluateMatching_remembers _ _ _

theorem evaluateSource_remembers {source : BotObservationSource}
    (h : evaluateSource parse sha256 source next o = .ok seen) : Remembers next seen := by
  cases source with
  | sse =>
    cases h
    exact evaluateSse_remembers next o
  | files =>
    cases h
    exact evaluateFiles_remembers next o
  | command matching =>
    simp only [evaluateSource, evaluateCommand] at h
    split_ifs at h
    exact evaluateMatch_remembers h
  | http select matching =>
    simp only [evaluateSource, evaluateHttp] at h
    split_ifs at h
    split at h
    · exact evaluateMatch_remembers h
    · obtain ⟨body, -, h⟩ := bind_ok.mp h
      obtain ⟨value, -, h⟩ := bind_ok.mp h
      exact evaluateMatch_remembers h

theorem evaluateMatch_frame {matching : BotSourceMatch} {raw : Str} {value : Json ν}
    {canonicalized : Bool}
    (h : evaluateMatch parse sha256 next o matching raw value canonicalized = .ok seen) :
    seen.checkpoint.cursor = next.cursor ∧ seen.checkpoint.snapshot = next.snapshot := by
  cases matching with
  | items items identity initial =>
    obtain ⟨parsed, -, h⟩ := bind_ok.mp h
    obtain ⟨selected, -, h⟩ := bind_ok.mp (lift_ok.mp h)
    obtain ⟨list, -, h⟩ := bind_ok.mp h
    obtain ⟨scan, -, h⟩ := bind_ok.mp h
    cases h
    exact ⟨rfl, rfl⟩
  | changed | exit code repeated | contains text repeated | regex text repeated =>
    cases h
    exact ⟨rfl, rfl⟩

theorem Bounded.congr {cp : SourceCheckpoint} (h : Bounded ν next)
    (hsame : cp.cursor = next.cursor ∧ cp.snapshot = next.snapshot) : Bounded ν cp := by
  refine ⟨?_, ?_⟩
  · rw [hsame.1]
    exact h.cursor
  · rw [hsame.2]
    exact h.snapshot

theorem evaluateSse_bounded (h : Bounded ν next) (ho : ∀ id ∈ o.eventId, utf8Length id ≤ 4096) :
    Bounded ν (evaluateSse next o).checkpoint := by
  have hcursor : ∀ cursor ∈ movedCursor next o, utf8Length cursor ≤ 4096 := by
    unfold movedCursor
    split_ifs
    · exact ho
    · exact h.cursor
  unfold evaluateSse
  simp only
  split_ifs
  · exact ⟨hcursor, h.snapshot⟩
  · rcases nonempty o.eventId with _ | id
    · exact ⟨hcursor, h.snapshot⟩
    · simp only
      split_ifs
      · exact ⟨hcursor, h.snapshot⟩
      · exact ⟨hcursor, h.snapshot⟩

theorem emptySnapshot : IsSnapshot (ν := ν) [] := by
  refine ⟨Nat.zero_le _, ?_⟩
  have hlength : utf8Length (Json.stringify (.obj [] : Json ν)) = 2 := by
    simp only [Json.stringify, stringifyFields]
    decide
  rw [List.map_nil, hlength]
  decide

theorem evaluateFiles_bounded (h : Bounded ν next) (ho : ∀ x ∈ o.snapshot, IsSnapshot (ν := ν) x) :
    Bounded ν (evaluateFiles next o).checkpoint := by
  refine ⟨h.cursor, fun snapshot hsnapshot => ?_⟩
  cases hsnapshot
  rcases hown : o.snapshot with _ | own
  · rcases hbefore : next.snapshot with _ | before
    · exact emptySnapshot
    · exact h.snapshot before hbefore
  · exact ho own hown

theorem evaluateSource_bounded {source : BotObservationSource} {value : Json ν}
    (hparse : parseObservation value = .ok o) (hbounded : Bounded ν next)
    (h : evaluateSource parse sha256 source next o = .ok seen) : Bounded ν seen.checkpoint := by
  obtain ⟨hevent, hsnapshot⟩ := parse_bounds hparse
  cases source with
  | sse =>
    cases h
    exact evaluateSse_bounded hbounded hevent
  | files =>
    cases h
    exact evaluateFiles_bounded hbounded hsnapshot
  | command matching =>
    simp only [evaluateSource, evaluateCommand] at h
    split_ifs at h
    exact hbounded.congr (evaluateMatch_frame h)
  | http select matching =>
    simp only [evaluateSource, evaluateHttp] at h
    split_ifs at h
    split at h
    · exact hbounded.congr (evaluateMatch_frame h)
    · obtain ⟨body, -, h⟩ := bind_ok.mp h
      obtain ⟨value, -, h⟩ := bind_ok.mp h
      exact hbounded.congr (evaluateMatch_frame h)

theorem evaluateSource_baseline {source : BotObservationSource} (hinitial : next.initialized = false)
    (hsilent : startsSilent source = true)
    (h : evaluateSource parse sha256 source next o = .ok seen) : seen.events = [] := by
  unfold startsSilent at hsilent
  split at hsilent
  · simp only [evaluateSource, evaluateCommand] at h
    split_ifs at h
    obtain ⟨parsed, -, h⟩ := bind_ok.mp h
    exact evaluateItems_baseline hinitial (lift_ok.mp h)
  · simp only [evaluateSource, evaluateHttp] at h
    split_ifs at h
    split at h
    · obtain ⟨parsed, -, h⟩ := bind_ok.mp h
      exact evaluateItems_baseline hinitial (lift_ok.mp h)
    · obtain ⟨body, -, h⟩ := bind_ok.mp h
      obtain ⟨value, -, h⟩ := bind_ok.mp h
      obtain ⟨parsed, -, h⟩ := bind_ok.mp h
      exact evaluateItems_baseline hinitial (lift_ok.mp h)
  · cases hsilent

structure Evaluated (source : BotObservationSource) (previous : SourceCheckpoint) (seen : Seen ν) :
    Prop where
  generation : seen.checkpoint.generation = previous.generation
  sequence : seen.checkpoint.sequence = previous.sequence
  kept : previous.ids ⊆ seen.checkpoint.ids
  present : seen.present ⊆ seen.checkpoint.ids
  fresh : ∀ id ∈ identities seen.events, id ∉ previous.ids ∧ id ∈ seen.present
  distinct : (identities seen.events).Nodup
  quiet : isBaseline source previous = true → seen.events = []
  storable : Storable ν seen.checkpoint

theorem conclude_ok {last : Seen ν} (h : conclude seen = .ok last) :
    seen.checkpoint.ids.length ≤ 100000 ∧ last = {
      seen with
      checkpoint := { seen.checkpoint with initialized := true, resumeBaseline := false }
      events := if seen.checkpoint.resumeBaseline = true then [] else seen.events } := by
  unfold conclude at h
  obtain ⟨_, hlimit, h⟩ := bind_ok.mp h
  obtain ⟨_, -, h⟩ := bind_ok.mp h
  cases h
  have hbound := refuseIf_ok.mp hlimit
  exact ⟨by omega, rfl⟩

theorem evaluate_spec {source : BotObservationSource} {previous : SourceCheckpoint} {value : Json ν}
    (hstorable : Storable ν previous)
    (h : evaluateObservation parse sha256 source previous value = .ok seen) :
    Evaluated source previous seen := by
  unfold evaluateObservation at h
  obtain ⟨o, hparse, h⟩ := bind_ok.mp h
  by_cases hmodified : o.notModified = some true
  · rw [if_pos hmodified] at h
    cases h
    exact ⟨rfl, rfl, List.Subset.refl _, List.nil_subset _, fun id hid => (by cases hid),
      List.nodup_nil, fun _ => rfl, hstorable⟩
  · rw [if_neg hmodified] at h
    obtain ⟨first, hsource, hlast⟩ := bind_ok.mp h
    have hremembers := evaluateSource_remembers hsource
    have hbounded := evaluateSource_bounded (lift_ok.mp hparse) hstorable.toBounded hsource
    obtain ⟨hlimit, rfl⟩ := conclude_ok (lift_ok.mp hlast)
    refine ⟨hremembers.generation, hremembers.sequence, hremembers.kept, hremembers.present,
      fun id hid => ?_, ?_, fun hbaseline => ?_, ⟨⟨hbounded.cursor, hbounded.snapshot⟩, hlimit⟩⟩
    · simp only at hid
      split_ifs at hid
      · cases hid
      · exact hremembers.fresh id hid
    · simp only
      split_ifs
      · exact List.nodup_nil
      · exact hremembers.distinct
    · simp only [isBaseline, Bool.or_eq_true, Bool.and_eq_true, Bool.not_eq_true'] at hbaseline
      rcases hbaseline with hresume | ⟨hinitial, hsilent⟩
      · have hresumes := hremembers.resumes.trans hresume
        simp only [hresumes, if_true]
      · simp only [evaluateSource_baseline hinitial hsilent hsource, ite_self]

end Sources

end Terminay.Bots
