import Terminay.Bots.Evaluation
import Terminay.Bots.SourceStore
import Terminay.Script.Integers

/-!
# Runs of the source store

Over every order of observations, resets, resumptions, deliveries, failures and restarts:
an item has one event between two resets, baselines are silent for good, a call that fails
changes nothing, a restart reads what was saved, and session ids are never given twice.
-/

namespace Terminay.Bots
open Script Outcome

variable {ν : Type}

def Observed.fired (o : Observed) : List Str := o.events.filterMap id

structure Once (log : List Observed) : Prop where
  single : (log.flatMap Observed.fired).Nodup
  quiet : ∀ o ∈ log, o.baseline = true → o.events = []
  silenced : log.Pairwise fun o later => o.baseline = true → ∀ id ∈ o.present, id ∉ later.fired

namespace BotSourceStore

def log (s : BotSourceStore ν) (key : SourceKey) : List Observed :=
  (s.observed.filter fun e => e.1 = key).map Prod.snd

def saved (s : BotSourceStore ν) : SourceState ν := s.target.getD (SourceState.empty ν)

end BotSourceStore

def Admits (s : BotSourceStore ν) (t : BotTrigger) : Prop :=
  (t.id ∈ Entries.keys s.saved.checkpoints ∨ s.saved.checkpoints.length < 50) ∧
    ((Entries.get s.saved.checkpoints t.id).any (fun cp => cp.generation = t.current) = true ∨
      t.key ∉ s.opened)

def SourceInput.Admissible (s : BotSourceStore ν) : SourceInput ν → Prop
  | .observe t _ _ _ => Admits s t
  | .update t _ _ => Admits s t
  | _ => True

instance {s : BotSourceStore ν} {t : BotTrigger} : Decidable (Admits s t) :=
  inferInstanceAs (Decidable ((_ ∨ _) ∧ (_ ∨ _)))

instance {s : BotSourceStore ν} : (input : SourceInput ν) → Decidable (input.Admissible s)
  | .observe t _ _ _ => inferInstanceAs (Decidable (Admits s t))
  | .update t _ _ => inferInstanceAs (Decidable (Admits s t))
  | .delivered _ _ | .cancel _ _ _ | .restart => .isTrue trivial

variable [Engine ν] {s next : BotSourceStore ν}

/-- What is in memory, if anything, is the file, which is good and never needs the copy. -/
structure Filed (s : BotSourceStore ν) : Prop where
  cached : ∀ state ∈ s.cache, state = s.saved
  valid : ∀ state ∈ s.target, IsState state
  copied : s.target = none → s.previous = none

structure Knows (s : BotSourceStore ν) (key : SourceKey) (cp : SourceCheckpoint) : Prop where
  present : ∀ o ∈ s.log key, o.present ⊆ cp.ids
  fired : ∀ o ∈ s.log key, o.fired ⊆ cp.ids
  numbers : ∀ n, (key, n) ∈ s.numbers → n ≤ cp.sequence

structure Sound (sha256 : Str → Digest) (s : BotSourceStore ν) : Prop extends Filed s where
  keys : (Entries.keys s.saved.checkpoints).Nodup
  knows : ∀ e ∈ s.saved.checkpoints, Knows s (e.1, e.2.generation) e.2
  opened : ∀ e ∈ s.saved.checkpoints, (e.1, e.2.generation) ∈ s.opened
  observed : ∀ e ∈ s.observed, e.1 ∈ s.opened
  counted : ∀ e ∈ s.numbers, e.1 ∈ s.opened
  once : ∀ key, Once (s.log key)
  numbers : s.numbers.Nodup
  sessions : s.accepted.map PendingSourceEvent.sessionId =
    s.numbers.map fun number => (sha256 (sessionText number)).short
  pending : s.saved.pending.Sublist s.accepted

theorem Filed.load (h : Filed s) : s.load = .ok { s with cache := some s.saved } := by
  unfold BotSourceStore.load
  rcases hcache : s.cache with _ | state
  · rcases htarget : s.target with _ | state
    · have hcopy : s.previous.isNone = true := by
        rw [h.copied htarget]
        rfl
      simp only [if_pos hcopy]
      have hsaved : s.saved = SourceState.empty ν := by rw [BotSourceStore.saved, htarget]; rfl
      rw [hsaved]
    · have hsaved : s.saved = state := by rw [BotSourceStore.saved, htarget]; rfl
      simp only [if_pos (h.valid state htarget)]
      rw [hsaved]
  · have hsaved := h.cached state hcache
    rw [← hsaved]
    simp only [← hcache]

theorem Filed.contents (h : Filed s) : s.contents = .ok s.saved := by
  rw [BotSourceStore.contents, h.load]
  rfl

theorem save_ok {state : SourceState ν} {written : Bool} (h : s.save state written = .ok next) :
    state.pending.length ≤ 1000 ∧ next = s.stored state := by
  unfold BotSourceStore.save at h
  split_ifs at h with hpending hremembered hwritten
  cases h
  exact ⟨by omega, rfl⟩

theorem Filed.replaced {state : SourceState ν} (h : IsState state) (hcache : next.cache = some state)
    (htarget : next.target = some state) : Filed next := by
  refine ⟨?_, ?_, ?_⟩
  · intro cached hcached
    rw [hcache] at hcached
    cases hcached
    rw [BotSourceStore.saved, htarget]
    rfl
  · intro target hmem
    rw [htarget] at hmem
    cases hmem
    exact h
  · intro hnone
    rw [htarget] at hnone
    cases hnone

theorem initialCheckpoint_storable (generation : Id24) : Storable ν (initialCheckpoint generation) := by
  refine ⟨⟨?_, ?_⟩, Nat.zero_le _⟩
  · intro cursor hcursor
    cases hcursor
  · intro snapshot hsnapshot
    cases hsnapshot

theorem Filed.saved_valid (h : Filed s) : IsState s.saved := by
  rcases htarget : s.target with _ | state
  · have hsaved : s.saved = SourceState.empty ν := by rw [BotSourceStore.saved, htarget]; rfl
    rw [hsaved]
    exact ⟨Nat.zero_le _, Nat.zero_le _, fun e he => (by cases he)⟩
  · have hsaved : s.saved = state := by rw [BotSourceStore.saved, htarget]; rfl
    rw [hsaved]
    exact h.valid state htarget

section Logs

variable {key : SourceKey}

omit [Engine ν] in
theorem log_append (key k : SourceKey) (o : Observed) (h : next.observed = s.observed ++ [(k, o)]) :
    next.log key = s.log key ++ if k = key then [o] else [] := by
  rw [BotSourceStore.log, h, List.filter_append, List.map_append]
  split_ifs with hkey
  · simp [hkey, BotSourceStore.log]
  · simp [hkey, BotSourceStore.log]

theorem log_unopened {sha256 : Str → Digest} (h : Sound sha256 s) (hkey : key ∉ s.opened) :
    s.log key = [] := by
  have hnone : (s.observed.filter fun e => e.1 = key) = [] := by
    refine List.filter_eq_nil_iff.mpr fun e he heq => ?_
    have hopened := h.observed e he
    rw [of_decide_eq_true heq] at hopened
    exact hkey hopened
  rw [BotSourceStore.log, hnone]
  rfl

theorem Once.nil : Once [] := ⟨List.nodup_nil, fun _ ho => (by cases ho), List.Pairwise.nil⟩

theorem Once.append {log : List Observed} {o : Observed} (h : Once log) (hsingle : o.fired.Nodup)
    (hquiet : o.baseline = true → o.events = [])
    (hfresh : ∀ earlier ∈ log, ∀ id ∈ o.fired, id ∉ earlier.present ∧ id ∉ earlier.fired) :
    Once (log ++ [o]) := by
  refine ⟨?_, ?_, ?_⟩
  · rw [List.flatMap_append]
    refine List.nodup_append.mpr ⟨h.single, by simpa using hsingle, ?_⟩
    intro id hid other hother heq
    obtain ⟨earlier, hearlier, hfired⟩ := List.mem_flatMap.mp hid
    have hlast : other ∈ o.fired := by simpa using hother
    rw [← heq] at hlast
    exact (hfresh earlier hearlier id hlast).2 hfired
  · intro x hx
    rcases List.mem_append.mp hx with hx | hx
    · exact h.quiet x hx
    · rw [List.mem_singleton.mp hx]
      exact hquiet
  · refine List.pairwise_append.mpr ⟨h.silenced, List.pairwise_singleton _ _, ?_⟩
    intro earlier hearlier last hlast _ id hid hfired
    rw [List.mem_singleton.mp hlast] at hfired
    exact (hfresh earlier hearlier id hfired).1 hid

end Logs

section Checkpoints

variable {sha256 : Str → Digest} {t : BotTrigger}

theorem checkpoint_known (h : Sound sha256 s) (ha : Admits s t) :
    (s.saved.checkpoint t).generation = t.current ∧ Knows s t.key (s.saved.checkpoint t) ∧
      Storable ν (s.saved.checkpoint t) := by
  have hunopened : t.key ∉ s.opened → Knows s t.key (initialCheckpoint t.current) := by
    intro hkey
    have hlog := log_unopened h hkey
    refine ⟨?_, ?_, fun n hn => absurd (h.counted _ hn) hkey⟩
    · intro o ho
      rw [hlog] at ho
      cases ho
    · intro o ho
      rw [hlog] at ho
      cases ho
  unfold SourceState.checkpoint
  rcases hget : Entries.get s.saved.checkpoints t.id with _ | cp
  · have hkey : t.key ∉ s.opened := by
      rcases ha.2 with hany | hkey
      · rw [hget] at hany
        cases hany
      · exact hkey
    exact ⟨rfl, hunopened hkey, initialCheckpoint_storable t.current⟩
  · have hmem := Entries.mem_of_get hget
    simp only
    split_ifs with hgeneration
    · have hknows := h.knows _ hmem
      simp only [hgeneration] at hknows
      exact ⟨hgeneration, hknows, h.toFiled.saved_valid.2.2 _ hmem⟩
    · have hkey : t.key ∉ s.opened := by
        rcases ha.2 with hany | hkey
        · rw [hget] at hany
          exact absurd (of_decide_eq_true hany) hgeneration
        · exact hkey
      exact ⟨rfl, hunopened hkey, initialCheckpoint_storable t.current⟩

theorem checkpoints_bounded (h : Filed s) (ha : Admits s t) (cp : SourceCheckpoint) :
    (Entries.set s.saved.checkpoints t.id cp).length ≤ 50 := by
  have hbound := h.saved_valid.2.1
  rcases hget : Entries.get s.saved.checkpoints t.id with _ | old
  · rw [Entries.set_absent hget, List.length_append, List.length_singleton]
    rcases ha.1 with hkey | hless
    · exact absurd hkey (Entries.get_none.mp hget)
    · omega
  · rw [Entries.length_set_present hget]
    exact hbound

end Checkpoints

omit [Engine ν] in
theorem Knows.congr {key : SourceKey} {cp : SourceCheckpoint} (h : Knows s key cp)
    (hobserved : next.observed = s.observed) (hnumbers : next.numbers = s.numbers) :
    Knows next key cp := by
  have hlog : next.log key = s.log key := by rw [BotSourceStore.log, hobserved, BotSourceStore.log]
  refine ⟨?_, ?_, ?_⟩
  · rw [hlog]
    exact h.present
  · rw [hlog]
    exact h.fired
  · rw [hnumbers]
    exact h.numbers

section Replacing

variable {sha256 : Str → Digest} {t : BotTrigger}

structure Replaces (s next : BotSourceStore ν) (t : BotTrigger) (cp : SourceCheckpoint) : Prop where
  checkpoints : next.saved.checkpoints = Entries.set s.saved.checkpoints t.id cp
  generation : cp.generation = t.current
  opened : next.opened = s.opened ++ [t.key]
  observed : ∀ e ∈ next.observed, e.1 = t.key ∨ e ∈ s.observed
  log : ∀ key, key ≠ t.key → next.log key = s.log key
  numbers : ∀ e ∈ next.numbers, e.1 = t.key ∨ e ∈ s.numbers

theorem Sound.replace (cp : SourceCheckpoint) (h : Sound sha256 s) (hr : Replaces s next t cp)
    (hfiled : Filed next) (hknows : Knows next t.key cp) (honce : Once (next.log t.key))
    (hnumbers : next.numbers.Nodup)
    (hsessions : next.accepted.map PendingSourceEvent.sessionId =
      next.numbers.map fun number => (sha256 (sessionText number)).short)
    (hpending : next.saved.pending.Sublist next.accepted) : Sound sha256 next := by
  have hopened : ∀ key, key ∈ s.opened → key ∈ next.opened := by
    intro key hkey
    rw [hr.opened]
    exact List.mem_append_left _ hkey
  have hown : t.key ∈ next.opened := by
    rw [hr.opened]
    exact List.mem_append_right _ (List.mem_singleton_self t.key)
  refine ⟨hfiled, ?_, ?_, ?_, ?_, ?_, ?_, hnumbers, hsessions, hpending⟩
  · rw [hr.checkpoints]
    exact Entries.keys_set_nodup h.keys t.id cp
  · intro e he
    rw [hr.checkpoints] at he
    rcases Entries.mem_set.mp he with rfl | ⟨he, hne⟩
    · simp only [hr.generation]
      exact hknows
    · have hkey : (e.1, e.2.generation) ≠ t.key := fun heq => hne (congrArg Prod.fst heq)
      have hbefore := h.knows e he
      have hlog := hr.log _ hkey
      refine ⟨?_, ?_, fun n hn => ?_⟩
      · rw [hlog]
        exact hbefore.present
      · rw [hlog]
        exact hbefore.fired
      · rcases hr.numbers _ hn with heq | hn
        · exact absurd heq hkey
        · exact hbefore.numbers n hn
  · intro e he
    rw [hr.checkpoints] at he
    rcases Entries.mem_set.mp he with rfl | ⟨he, -⟩
    · simp only [hr.generation]
      exact hown
    · exact hopened _ (h.opened e he)
  · intro e he
    rcases hr.observed e he with heq | he
    · rw [heq]
      exact hown
    · exact hopened _ (h.observed e he)
  · intro e he
    rcases hr.numbers e he with heq | he
    · rw [heq]
      exact hown
    · exact hopened _ (h.counted e he)
  · intro key
    rcases eq_or_ne key t.key with rfl | hne
    · exact honce
    · rw [hr.log key hne]
      exact h.once key

end Replacing

section Calls

variable {parse : Str → Option (Json ν)} {sha256 : Str → Digest} {t : BotTrigger}

theorem acceptObservation_ok {value : Json ν} {a : Acceptance} {written : Bool} (h : Filed s)
    (haccept : s.acceptObservation parse sha256 t value a written = .ok next) :
    ∃ seen, evaluateObservation parse sha256 t.condition (s.saved.checkpoint t) value = .ok seen ∧
      (s.saved.pending ++ seen.events.zipIdx.map
        (pendingEvent sha256 t (checked t a seen.checkpoint) a)).length ≤ 1000 ∧
      next = { s.stored {
          checkpoints := Entries.set s.saved.checkpoints t.id
            (committed (checked t a seen.checkpoint) a seen.events.length)
          pending := s.saved.pending ++ seen.events.zipIdx.map
            (pendingEvent sha256 t (checked t a seen.checkpoint) a) } with
        opened := s.opened ++ [t.key]
        numbers := s.numbers ++ (List.range seen.events.length).map fun k =>
          ((t.id, seen.checkpoint.generation), seen.checkpoint.sequence + k + 1)
        accepted := s.accepted ++ seen.events.zipIdx.map
          (pendingEvent sha256 t (checked t a seen.checkpoint) a)
        observed := s.observed ++ [(t.key, ⟨seen.present, seen.events.map SourceEvent.identity,
          isBaseline t.condition (s.saved.checkpoint t)⟩)] } := by
  unfold BotSourceStore.acceptObservation at haccept
  rw [h.load] at haccept
  obtain ⟨loaded, hloaded, haccept⟩ := bind_ok.mp haccept
  cases hloaded
  obtain ⟨seen, hseen, haccept⟩ := bind_ok.mp haccept
  obtain ⟨committed, hcommit, haccept⟩ := bind_ok.mp haccept
  obtain ⟨saved, hsave, hcommit⟩ := bind_ok.mp hcommit
  obtain ⟨hlength, rfl⟩ := save_ok hsave
  cases hcommit
  cases haccept
  exact ⟨seen, hseen, hlength, rfl⟩

omit [Engine ν] in
theorem fired_identities (events : List (SourceEvent ν)) (present : List Str) (baseline : Bool) :
    Observed.fired ⟨present, events.map SourceEvent.identity, baseline⟩ = identities events := by
  simp [Observed.fired, identities, List.filterMap_map]

omit [Engine ν] in
theorem sessions_numbered (events : List (SourceEvent ν)) (cp : SourceCheckpoint) (a : Acceptance) :
    (events.zipIdx.map (pendingEvent sha256 t cp a)).map PendingSourceEvent.sessionId =
      ((List.range events.length).map fun k => ((t.id, cp.generation), cp.sequence + k + 1)).map
        fun number => (sha256 (sessionText number)).short := by
  have hindices := List.zipIdx_map_snd 0 events
  rw [List.range_eq_range', ← hindices, List.map_map, List.map_map, List.map_map]
  rfl

theorem Sound.observe {value : Json ν} {a : Acceptance} {written : Bool} (h : Sound sha256 s)
    (ha : Admits s t) (haccept : s.acceptObservation parse sha256 t value a written = .ok next) :
    Sound sha256 next := by
  obtain ⟨seen, hseen, hpending, hnext⟩ := acceptObservation_ok h.toFiled haccept
  obtain ⟨hgeneration, hknows, hstorable⟩ := checkpoint_known h ha
  have hspec := evaluate_spec hstorable hseen
  have hcurrent : seen.checkpoint.generation = t.current := hspec.generation.trans hgeneration
  have hobserved : next.observed = s.observed ++ [(t.key, ⟨seen.present,
      seen.events.map SourceEvent.identity, isBaseline t.condition (s.saved.checkpoint t)⟩)] := by
    rw [hnext]
  have hlog := fun key => log_append key t.key _ hobserved
  have hnumbers : next.numbers = s.numbers ++ (List.range seen.events.length).map fun k =>
      (t.key, seen.checkpoint.sequence + k + 1) := by
    rw [hnext, hcurrent]
    rfl
  have hbelow : ∀ n, (t.key, n) ∈ s.numbers → n ≤ seen.checkpoint.sequence := by
    intro n hn
    rw [hspec.sequence]
    exact hknows.numbers n hn
  apply Sound.replace (t := t) (committed (checked t a seen.checkpoint) a seen.events.length) h
  · refine ⟨by rw [hnext]; rfl, hcurrent, by rw [hnext], ?_, ?_, ?_⟩
    · intro e he
      rw [hnext] at he
      rcases List.mem_append.mp he with he | he
      · exact .inr he
      · rw [List.mem_singleton.mp he]
        exact .inl rfl
    · intro key hne
      rw [hlog, if_neg (Ne.symm hne), List.append_nil]
    · intro e he
      rw [hnumbers] at he
      rcases List.mem_append.mp he with he | he
      · exact .inr he
      · obtain ⟨k, -, rfl⟩ := List.mem_map.mp he
        exact .inl rfl
  · rw [hnext]
    refine Filed.replaced ?_ rfl rfl
    · refine ⟨hpending, checkpoints_bounded h.toFiled ha _, fun e he => ?_⟩
      rcases Entries.mem_set.mp he with rfl | ⟨he, -⟩
      · exact ⟨⟨hspec.storable.cursor, hspec.storable.snapshot⟩, hspec.storable.ids⟩
      · exact h.toFiled.saved_valid.2.2 e he
  · -- the checkpoint remembers what its log names
    refine ⟨?_, ?_, ?_⟩
    · intro o ho
      rw [hlog, if_pos rfl] at ho
      rcases List.mem_append.mp ho with ho | ho
      · exact fun id hid => hspec.kept (hknows.present o ho hid)
      · rw [List.mem_singleton.mp ho]
        exact hspec.present
    · intro o ho
      rw [hlog, if_pos rfl] at ho
      rcases List.mem_append.mp ho with ho | ho
      · exact fun id hid => hspec.kept (hknows.fired o ho hid)
      · rw [List.mem_singleton.mp ho, fired_identities]
        exact fun id hid => hspec.present (hspec.fresh id hid).2
    · intro n hn
      rw [hnumbers] at hn
      simp only [committed, checked]
      rcases List.mem_append.mp hn with hn | hn
      · have := hbelow n hn
        omega
      · obtain ⟨k, hk, heq⟩ := List.mem_map.mp hn
        have hk := List.mem_range.mp hk
        cases heq
        omega
  · rw [hlog, if_pos rfl]
    refine (h.once t.key).append ?_ ?_ ?_
    · rw [fired_identities]
      exact hspec.distinct
    · intro hbaseline
      simp only [hspec.quiet hbaseline, List.map_nil]
    · intro earlier hearlier id hid
      rw [fired_identities] at hid
      have hnew := (hspec.fresh id hid).1
      exact ⟨fun hp => hnew (hknows.present earlier hearlier hp),
        fun hf => hnew (hknows.fired earlier hearlier hf)⟩
  · rw [hnumbers]
    refine List.nodup_append.mpr ⟨h.numbers, ?_, ?_⟩
    · refine List.Nodup.map (fun i j hij => ?_) List.nodup_range
      have heq := congrArg Prod.snd hij
      simp only at heq
      omega
    · intro number hnumber other hother heq
      obtain ⟨k, -, rfl⟩ := List.mem_map.mp hother
      rw [heq] at hnumber
      have := hbelow _ hnumber
      omega
  · rw [hnext, List.map_append, List.map_append, h.sessions, sessions_numbered]
    rfl
  · rw [hnext]
    exact h.pending.append (List.Sublist.refl _)

theorem resumed_keeps (t : BotTrigger) (cp : SourceCheckpoint) :
    (resumed t cp).generation = cp.generation ∧ (resumed t cp).ids = cp.ids ∧
      (resumed t cp).sequence = cp.sequence ∧ (resumed t cp).snapshot = cp.snapshot ∧
        ∀ cursor ∈ (resumed t cp).cursor, cursor ∈ cp.cursor := by
  unfold resumed
  split
  · exact ⟨rfl, rfl, rfl, rfl, fun cursor hcursor => (by cases hcursor)⟩
  · exact ⟨rfl, rfl, rfl, rfl, fun _ hcursor => hcursor⟩

/-- Only a reset forgets, and the numbers of sessions go on after it. -/
theorem change_keeps (t : BotTrigger) (cp : SourceCheckpoint) (change : CheckpointChange)
    (hgeneration : cp.generation = t.current) :
    (change.apply t cp).generation = t.current ∧ (change.apply t cp).sequence = cp.sequence ∧
      (Storable ν cp → Storable ν (change.apply t cp)) ∧
        (change.resets = false → (change.apply t cp).ids = cp.ids) := by
  obtain ⟨hgen, hids, hsequence, hsnapshot, hcursor⟩ := resumed_keeps t cp
  have hresumed : Storable ν cp → Storable ν (resumed t cp) := by
    intro h
    refine ⟨⟨fun cursor hc => h.cursor cursor (hcursor cursor hc), ?_⟩, ?_⟩
    · rw [hsnapshot]
      exact h.snapshot
    · rw [hids]
      exact h.ids
  cases change with
  | reset resume =>
    exact ⟨rfl, rfl, fun h => ⟨⟨h.cursor, h.snapshot⟩, Nat.zero_le _⟩, fun hreset => (by cases hreset)⟩
  | enabled =>
    refine ⟨hgen.trans hgeneration, hsequence, fun h => ?_, fun _ => hids⟩
    exact ⟨⟨(hresumed h).cursor, (hresumed h).snapshot⟩, (hresumed h).ids⟩
  | available => exact ⟨hgen.trans hgeneration, hsequence, hresumed, fun _ => hids⟩
  | ignoreGap | health patch episode | recovery range =>
    exact ⟨hgeneration, rfl, fun h => ⟨⟨h.cursor, h.snapshot⟩, h.ids⟩, fun _ => rfl⟩

theorem update_ok {change : CheckpointChange} {written : Bool} (h : Filed s)
    (hupdate : s.update t change written = .ok next) :
    s.saved.pending.length ≤ 1000 ∧ next = { s.stored { s.saved with
        checkpoints := Entries.set s.saved.checkpoints t.id
          (change.apply t (s.saved.checkpoint t)) } with
      opened := s.opened ++ [t.key]
      observed := if change.resets = true then s.observed.filter fun e => e.1 ≠ t.key
        else s.observed } := by
  unfold BotSourceStore.update at hupdate
  rw [h.load] at hupdate
  obtain ⟨loaded, hloaded, hupdate⟩ := bind_ok.mp hupdate
  cases hloaded
  obtain ⟨saved, hsave, hupdate⟩ := bind_ok.mp hupdate
  obtain ⟨hlength, rfl⟩ := save_ok hsave
  cases hupdate
  exact ⟨hlength, rfl⟩

omit [Engine ν] in
theorem log_filtered (key : SourceKey) (change : CheckpointChange)
    (h : next.observed = if change.resets = true then s.observed.filter fun e => e.1 ≠ t.key
      else s.observed) :
    next.log key = if change.resets = true ∧ key = t.key then [] else s.log key := by
  rw [BotSourceStore.log, h]
  by_cases hresets : change.resets = true
  · rw [if_pos hresets, List.filter_filter]
    by_cases hkey : key = t.key
    · rw [if_pos ⟨hresets, hkey⟩, List.map_eq_nil_iff, List.filter_eq_nil_iff]
      intro e _
      simp [hkey]
    · rw [if_neg fun hboth => hkey hboth.2, BotSourceStore.log]
      refine congrArg _ (List.filter_congr fun e _ => ?_)
      by_cases he : e.1 = key
      · simp [he, hkey]
      · simp [he]
  · rw [if_neg hresets, if_neg fun hboth => hresets hboth.1, BotSourceStore.log]

theorem Sound.update {change : CheckpointChange} {written : Bool} (h : Sound sha256 s)
    (ha : Admits s t) (hupdate : s.update t change written = .ok next) : Sound sha256 next := by
  obtain ⟨hpending, hnext⟩ := update_ok h.toFiled hupdate
  obtain ⟨hgeneration, hknows, hstorable⟩ := checkpoint_known h ha
  obtain ⟨hcurrent, hsequence, hstores, hids⟩ := change_keeps (ν := ν) t _ change hgeneration
  have hlog := fun key => log_filtered (t := t) (s := s) key change (congrArg _ hnext)
  apply Sound.replace (t := t) (change.apply t (s.saved.checkpoint t)) h
  · refine ⟨by rw [hnext]; rfl, hcurrent, by rw [hnext], ?_, ?_, ?_⟩
    · intro e he
      rw [hnext] at he
      simp only at he
      split_ifs at he
      · exact .inr (List.mem_filter.mp he).1
      · exact .inr he
    · intro key hne
      rw [hlog, if_neg fun hboth => hne hboth.2]
    · intro e he
      rw [hnext] at he
      exact .inr he
  · rw [hnext]
    refine Filed.replaced ?_ rfl rfl
    · refine ⟨hpending, checkpoints_bounded h.toFiled ha _, fun e he => ?_⟩
      rcases Entries.mem_set.mp he with rfl | ⟨he, -⟩
      · exact hstores hstorable
      · exact h.toFiled.saved_valid.2.2 e he
  · have hn : next.numbers = s.numbers := by rw [hnext]; rfl
    by_cases hresets : change.resets = true
    · have hempty : next.log t.key = [] := by rw [hlog, if_pos ⟨hresets, rfl⟩]
      refine ⟨?_, ?_, fun n hmem => ?_⟩
      · rw [hempty]
        exact fun o ho => (by cases ho)
      · rw [hempty]
        exact fun o ho => (by cases ho)
      · rw [hn] at hmem
        rw [hsequence]
        exact hknows.numbers n hmem
    · have hsame : next.log t.key = s.log t.key := by
        rw [hlog, if_neg fun hboth => hresets hboth.1]
      have hkept := hids (by simpa using hresets)
      refine ⟨?_, ?_, fun n hmem => ?_⟩
      · rw [hsame, hkept]
        exact hknows.present
      · rw [hsame, hkept]
        exact hknows.fired
      · rw [hn] at hmem
        rw [hsequence]
        exact hknows.numbers n hmem
  · rw [hlog]
    split_ifs
    · exact Once.nil
    · exact h.once t.key
  · rw [hnext]
    exact h.numbers
  · rw [hnext]
    exact h.sessions
  · rw [hnext]
    exact h.pending

theorem Sound.less {state : SourceState ν} (h : Sound sha256 s)
    (hcheckpoints : state.checkpoints.Sublist s.saved.checkpoints)
    (hpending : state.pending.Sublist s.saved.pending) : Sound sha256 (s.stored state) := by
  have hvalid := h.toFiled.saved_valid
  have hstate : IsState state := ⟨hpending.length_le.trans hvalid.1,
    hcheckpoints.length_le.trans hvalid.2.1, fun e he => hvalid.2.2 e (hcheckpoints.subset he)⟩
  exact ⟨Filed.replaced hstate rfl rfl, h.keys.sublist (hcheckpoints.map _),
    fun e he => (h.knows e (hcheckpoints.subset he)).congr rfl rfl,
    fun e he => h.opened e (hcheckpoints.subset he), h.observed, h.counted, h.once, h.numbers,
    h.sessions, hpending.trans h.pending⟩

theorem Sound.delivered {id : Id24} {written : Bool} (h : Sound sha256 s)
    (hcall : s.delivered id written = .ok next) : Sound sha256 next := by
  unfold BotSourceStore.delivered at hcall
  rw [h.toFiled.load] at hcall
  obtain ⟨loaded, hloaded, hcall⟩ := bind_ok.mp hcall
  cases hloaded
  obtain ⟨-, rfl⟩ := save_ok hcall
  exact h.less (List.Sublist.refl _) List.filter_sublist

theorem Sound.cancel {forget written : Bool} (h : Sound sha256 s)
    (hcall : s.cancel t forget written = .ok next) : Sound sha256 next := by
  unfold BotSourceStore.cancel at hcall
  rw [h.toFiled.load] at hcall
  obtain ⟨loaded, hloaded, hcall⟩ := bind_ok.mp hcall
  cases hloaded
  obtain ⟨-, rfl⟩ := save_ok hcall
  refine h.less ?_ List.filter_sublist
  simp only
  split_ifs
  · exact List.filter_sublist
  · exact List.Sublist.refl _

theorem Sound.reread {cache : Option (SourceState ν)} (h : Sound sha256 s)
    (hcache : ∀ state ∈ cache, state = s.saved) : Sound sha256 { s with cache := cache } :=
  { h with
    cached := hcache
    knows := fun e he => (h.knows e he).congr rfl rfl }

theorem Sound.step {input : SourceInput ν} (h : Sound sha256 s) (ha : input.Admissible s) :
    Sound sha256 (s.step parse sha256 input) := by
  unfold BotSourceStore.step
  rcases hattempt : s.attempt parse sha256 input with error | next
  · rw [h.toFiled.load]
    refine h.reread fun state hstate => ?_
    cases hstate
    rfl
  · cases input with
    | observe t value a written => exact h.observe ha hattempt
    | update t change written => exact h.update ha hattempt
    | delivered id written => exact h.delivered hattempt
    | cancel t forget written => exact h.cancel hattempt
    | restart =>
      cases hattempt
      exact h.reread fun _ hstate => (by cases hstate)

end Calls

section Laws

variable {parse : Str → Option (Json ν)} {sha256 : Str → Digest}

theorem colon_split {a b c d : Str} (hlength : a.length = c.length)
    (h : a ++ unit ':' :: b = c ++ unit ':' :: d) : a = c ∧ b = d := by
  obtain ⟨hleft, hright⟩ := List.append_inj h hlength
  exact ⟨hleft, (List.cons.inj hright).2⟩

theorem sessionText_injective : Function.Injective sessionText := by
  intro x y h
  obtain ⟨⟨⟨xid, hxid⟩, ⟨xgeneration, hxgeneration⟩⟩, xnumber⟩ := x
  obtain ⟨⟨⟨yid, hyid⟩, ⟨ygeneration, hygeneration⟩⟩, ynumber⟩ := y
  obtain ⟨hid, hrest⟩ := colon_split (hxid.1.trans hyid.1.symm) h
  obtain ⟨hgeneration, hnumber⟩ := colon_split (hxgeneration.1.trans hygeneration.1.symm) hrest
  cases natText_injective hnumber
  cases hid
  cases hgeneration
  rfl

structure SourceLaws (parse : Str → Option (Json ν)) (sha256 : Str → Digest)
    (s : BotSourceStore ν) : Prop where
  once : ∀ key, Once (s.log key)
  failed : ∀ input error, s.attempt parse sha256 input = .error error →
    (s.step parse sha256 input).contents = s.contents
  restarted : (s.step parse sha256 .restart).contents = s.contents
  pending : ∀ state, s.contents = .ok state → state.pending.Sublist s.accepted
  sessions : (s.accepted.map PendingSourceEvent.sessionId).Nodup

theorem Sound.laws (h : Sound sha256 s)
    (hdigest : ∀ x ∈ s.numbers, ∀ y ∈ s.numbers,
      (sha256 (sessionText x)).short = (sha256 (sessionText y)).short →
        sessionText x = sessionText y) : SourceLaws parse sha256 s := by
  have hcontents := h.toFiled.contents
  refine ⟨h.once, ?_, ?_, ?_, ?_⟩
  · intro input error herror
    have hreread : Sound sha256 { s with cache := some s.saved } :=
      h.reread fun state hstate => (by cases hstate; rfl)
    rw [BotSourceStore.step, herror, h.toFiled.load, hcontents]
    exact hreread.toFiled.contents
  · have hreread : Sound sha256 { s with cache := none } :=
      h.reread fun _ hstate => (by cases hstate)
    rw [hcontents]
    exact hreread.toFiled.contents
  · intro state hstate
    rw [hcontents] at hstate
    cases hstate
    exact h.pending
  · rw [h.sessions]
    refine List.Nodup.map_on (fun x hx y hy heq => ?_) h.numbers
    exact sessionText_injective (hdigest x hx y hy heq)

theorem created_sound : Sound sha256 (BotSourceStore.created ν) := by
  refine ⟨⟨?_, ?_, ?_⟩, List.nodup_nil, ?_, ?_, ?_, ?_, fun _ => Once.nil, List.nodup_nil, rfl,
    List.Sublist.refl _⟩
  · exact fun _ hstate => (by cases hstate)
  · exact fun _ hstate => (by cases hstate)
  · exact fun _ => rfl
  · exact fun _ he => (by cases he)
  · exact fun _ he => (by cases he)
  · exact fun _ he => (by cases he)
  · exact fun _ he => (by cases he)

end Laws

def sampleParse (s : Str) : Option (Json ℤ) :=
  if s = js "[\"a\"]" then some (.arr [.str (js "a")])
  else if s = js "[\"a\",\"b\"]" then some (.arr [.str (js "a"), .str (js "b")])
  else none

def sampleTrigger : BotTrigger where
  id := ⟨List.replicate 24 97, by decide⟩
  generation := some ⟨List.replicate 24 98, by decide⟩
  name := []
  prompt := []
  condition := .command (some (.items [] [] (some .process)))

def sampleDigest (s : Str) : Digest :=
  if s = sessionText (sampleTrigger.key, 1) then
    ⟨js "1cf82f82cc34836372f5ca110de414ed10cca50870f2e3a5a20e76fc51271567", by decide +kernel⟩
  else if s = sessionText (sampleTrigger.key, 2) then
    ⟨js "c26b80a0c922fca59c4d154e513f9451fe67e1eab294e281444909afeac1ed1a", by decide +kernel⟩
  else if s = sessionText (sampleTrigger.key, 3) then
    ⟨js "e6af7282d3324a431146b3d1e2c5415ef3e90541a8e38e9a734478e9908bc84a", by decide +kernel⟩
  else ⟨List.replicate 64 48, by decide⟩

def sampleRun : List (SourceInput ℤ) :=
  let observe (stdout : String) (written : Bool) : SourceInput ℤ :=
    .observe sampleTrigger (.obj [(js "stdout", .str (js stdout)), (js "exitCode", .num 0)])
      ⟨0, 0, .trigger, none, false, fun _ => sampleTrigger.id⟩ written
  [observe "[\"a\"]" true, observe "[\"a\",\"b\"]" false, .restart, observe "[\"a\",\"b\"]" true,
    observe "[" true, .update sampleTrigger .enabled true, observe "[\"a\",\"b\"]" true,
    .update sampleTrigger (.reset false) true, observe "[\"a\"]" true]

end Terminay.Bots
