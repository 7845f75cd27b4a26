import Terminay.Language.Sessions

/-!
# What every record of the manager keeps

A record is registered under its key and its session id at once, has one idle timer at most, and
is unavailable once its session exited or was told to stop.
-/

namespace Terminay.Language
open Script

variable {o : Options} {s t : LanguageSessionManager} {r q : ℕ}

structure Life (record : SessionRecord) : Prop where
  begins : record.state = .starting → record.starting.isSome = true
  pending : record.starting.isSome = true →
    record.started = false ∧ record.state ≠ .ready ∧ (record.state = .unavailable → record.exited = true)
  unstopped : record.starting.isSome = true ∨ record.state = .ready → record.stops = 0
  finished : record.state = .unavailable → record.started = true →
    record.exited = true ∨ record.stops = 1
  once : record.stops ≤ 1

theorem Life.unmade : Life .unmade := by
  refine ⟨nofun, nofun, ?_, nofun, Nat.zero_le 1⟩
  exact fun _ => rfl

/-- A loop waits for the start of every record that was forgotten before its session ended. -/
def Awaited (s : LanguageSessionManager) (loops : List Stopping) (r : ℕ) : Prop :=
  ¬ Registered s r → (s.records r).state ≠ .unavailable → ∃ l ∈ loops, l.stage = .starting r

structure Framed (o : Options) (s : LanguageSessionManager) : Prop where
  keyed : ∀ k r, s.sessions.get k = some r →
    (s.records r).key = k ∧ r < s.sequence ∧ r ∈ s.bySessionId
  indexed : ∀ r ∈ s.bySessionId, Registered s r
  bounded : s.sessions.size ≤ o.maxSessions
  timed : ∀ (timer r : ℕ), s.timers[timer]? = some r →
    (s.records r).idleTimer = some timer ∧ Registered s r
  life : ∀ r, Life (s.records r)
  cooled : ∀ (k : Str) (u : ℚ), s.cooling[k]? = some u → s.clock < u →
    ∃ r, s.sessions.get k = some r ∧ (s.records r).state = .unavailable ∧
      u ≤ (s.records r).retryAfter
  launches : ∀ l ∈ s.launches, ∀ u ∈ l.cooling, u ≤ l.startedAt
  handed : ∀ h ∈ s.handed, h.registered = true

structure Sound (o : Options) (s : LanguageSessionManager) : Prop extends Framed o s where
  awaited : ∀ r, Awaited s s.stopping r

/-! ## One record changes -/

@[simp] theorem setRecord_self (s : LanguageSessionManager) (r : ℕ) (record : SessionRecord) :
    (setRecord s r record).records r = record := if_pos rfl

theorem setRecord_other (s : LanguageSessionManager) (record : SessionRecord) (h : q ≠ r) :
    (setRecord s r record).records q = s.records q := if_neg h

theorem setRecord_registered {record : SessionRecord} (hkey : record.key = (s.records r).key) :
    Registered (setRecord s r record) q ↔ Registered s q := by
  unfold Registered
  rcases eq_or_ne q r with rfl | hne
  · rw [setRecord_self, hkey]
    rfl
  · rw [setRecord_other s record hne]
    rfl

structure Changes (s : LanguageSessionManager) (r : ℕ) (record : SessionRecord) : Prop where
  key : record.key = (s.records r).key
  life : Life record
  cooling : ∀ u, s.cooling[(s.records r).key]? = some u →
    (s.records r).state = .unavailable ∧ u ≤ (s.records r).retryAfter →
      record.state = .unavailable ∧ u ≤ record.retryAfter

theorem Framed.retime (h : Framed o s) {record : SessionRecord} (hc : Changes s r record)
    (timers : Table.Of ℕ ℕ) (next : ℕ) (htimers : ∀ timer q : ℕ, timers[timer]? = some q →
      s.timers[timer]? = some q ∧ q ≠ r ∨
        q = r ∧ record.idleTimer = some timer ∧ Registered s r) :
    Framed o { setRecord s r record with timers := timers, nextTimer := next } := by
  refine ⟨fun k q hq => ?_, fun q hq => ?_, h.bounded, fun timer q hq => ?_, fun q => ?_,
    fun k u hk hu => ?_, h.launches, h.handed⟩
  · have hkeyed := h.keyed k q hq
    show ((setRecord s r record).records q).key = k ∧ _
    rcases eq_or_ne q r with rfl | hne
    · rw [setRecord_self, hc.key]
      exact hkeyed
    · rw [setRecord_other s record hne]
      exact hkeyed
  · exact (setRecord_registered hc.key).mpr (h.indexed q hq)
  · show ((setRecord s r record).records q).idleTimer = some timer ∧ _
    rcases htimers timer q hq with ⟨hold, hne⟩ | ⟨rfl, hidle, hin⟩
    · have htimed := h.timed timer q hold
      rw [setRecord_other s record hne]
      exact ⟨htimed.1, (setRecord_registered hc.key).mpr htimed.2⟩
    · rw [setRecord_self]
      exact ⟨hidle, (setRecord_registered hc.key).mpr hin⟩
  · show Life ((setRecord s r record).records q)
    rcases eq_or_ne q r with rfl | hne
    · rw [setRecord_self]
      exact hc.life
    · rw [setRecord_other s record hne]
      exact h.life q
  · obtain ⟨q, hq, hcooling⟩ := h.cooled k u hk hu
    refine ⟨q, hq, ?_⟩
    show ((setRecord s r record).records q).state = .unavailable ∧
      u ≤ ((setRecord s r record).records q).retryAfter
    rcases eq_or_ne q r with rfl | hne
    · rw [setRecord_self]
      exact hc.cooling u ((h.keyed k q hq).1.symm ▸ hk) hcooling
    · rw [setRecord_other s record hne]
      exact hcooling

theorem Framed.setRecord (h : Framed o s) {record : SessionRecord} (hc : Changes s r record)
    (htimer : record.idleTimer = (s.records r).idleTimer) : Framed o (setRecord s r record) := by
  refine h.retime hc s.timers s.nextTimer fun timer q hq => ?_
  rcases eq_or_ne q r with rfl | hne
  · have htimed := h.timed timer q hq
    exact .inr ⟨rfl, htimer.trans htimed.1, htimed.2⟩
  · exact .inl ⟨hq, hne⟩

theorem Awaited.setRecord {loops : List Stopping} (hq : Awaited s loops q)
    (record : SessionRecord) (hkey : record.key = (s.records r).key)
    (hstate : q = r → record.state ≠ .unavailable → (s.records r).state ≠ .unavailable) :
    Awaited (setRecord s r record) loops q := by
  intro hout hlive
  rw [setRecord_registered hkey] at hout
  refine hq hout ?_
  rcases eq_or_ne q r with rfl | hne
  · rw [setRecord_self] at hlive
    exact hstate rfl hlive
  · rw [setRecord_other s record hne] at hlive
    exact hlive

/-! ## Timers -/

theorem Framed.cancelled (h : Framed o s) {timer : ℕ}
    (hq : (cancelTimer s.timers (s.records r).idleTimer)[timer]? = some q) :
    s.timers[timer]? = some q ∧ q ≠ r := by
  rcases hidle : (s.records r).idleTimer with _ | idle
  · rw [hidle] at hq
    refine ⟨hq, ?_⟩
    rintro rfl
    have hsome := (h.timed timer _ hq).1
    rw [hidle] at hsome
    cases hsome
  · rw [hidle, cancelTimer, Table.get_erase] at hq
    split_ifs at hq with hne
    refine ⟨hq, ?_⟩
    rintro rfl
    have hsome := (h.timed timer _ hq).1
    rw [hidle, Option.some.injEq] at hsome
    exact hne hsome

theorem Life.retimed {record : SessionRecord} (h : Life record) (activity : ℚ)
    (timer : Option ℕ) :
    Life { record with lastActivity := activity, idleTimer := timer } :=
  ⟨h.begins, h.pending, h.unstopped, h.finished, h.once⟩

theorem Framed.touch (h : Framed o s) (hin : Registered s r) : Framed o (touch s r) := by
  have hc : Changes s r { s.records r with lastActivity := s.clock, idleTimer := some s.nextTimer } :=
    ⟨rfl, (h.life r).retimed _ _, fun _ _ hcooling => hcooling⟩
  refine h.retime hc _ _ fun timer q hq => ?_
  rw [Table.get_insert] at hq
  split_ifs at hq with hnext
  · cases hq
    exact .inr ⟨rfl, congrArg some hnext, hin⟩
  · exact .inl (h.cancelled hq)

theorem Awaited.touch {loops : List Stopping} (hq : Awaited s loops q) :
    Awaited (touch s r) loops q :=
  hq.setRecord { s.records r with lastActivity := s.clock, idleTimer := some s.nextTimer } rfl
    fun _ hlive => hlive

/-! ## Leaving the maps -/

theorem forget_get (s : LanguageSessionManager) (r : ℕ) (k : Str) :
    (forget s r).sessions.get k =
      if k = (s.records r).key ∧ s.sessions.get k = some r then none else s.sessions.get k := by
  show (if s.sessions.get (s.records r).key = some r then
    s.sessions.delete (s.records r).key else s.sessions).get k = _
  by_cases hin : s.sessions.get (s.records r).key = some r
  · rw [if_pos hin, OrderedMap.get_delete]
    by_cases hk : k = (s.records r).key
    · rw [if_pos hk, if_pos ⟨hk, hk ▸ hin⟩]
    · rw [if_neg hk, if_neg fun hboth => hk hboth.1]
  · rw [if_neg hin, if_neg]
    rintro ⟨rfl, hget⟩
    exact hin hget

theorem forget_get_some {k : Str} (hget : (forget s r).sessions.get k = some q)
    (h : Framed o s) : s.sessions.get k = some q ∧ q ≠ r := by
  rw [forget_get] at hget
  split_ifs at hget with hgone
  refine ⟨hget, ?_⟩
  rintro rfl
  exact hgone ⟨(h.keyed k _ hget).1.symm, hget⟩

theorem forget_records (s : LanguageSessionManager) (hne : q ≠ r) :
    (forget s r).records q = s.records q := setRecord_other s _ hne

theorem forget_self (s : LanguageSessionManager) (r : ℕ) :
    (forget s r).records r = { s.records r with idleTimer := none } := setRecord_self s r _

theorem forget_registered (h : Framed o s) :
    Registered (forget s r) q ↔ Registered s q ∧ q ≠ r := by
  constructor
  · intro hq
    obtain ⟨hget, hne⟩ := forget_get_some hq h
    rw [forget_records s hne] at hget
    exact ⟨hget, hne⟩
  · rintro ⟨hq, hne⟩
    unfold Registered
    rw [forget_records s hne, forget_get, if_neg]
    · exact hq
    · rintro ⟨-, hr⟩
      rw [hq] at hr
      cases hr
      exact hne rfl

theorem Framed.cooledDown (h : Framed o s) (hin : Registered s r) (hcooling : ¬ Cooling s r) {u : ℚ}
    (hu : s.cooling[(s.records r).key]? = some u) : u ≤ s.clock := by
  by_contra hlater
  obtain ⟨q, hq, hstate, hretry⟩ := h.cooled _ u hu (lt_of_not_ge hlater)
  rw [Registered] at hin
  rw [hin] at hq
  cases hq
  exact hcooling ⟨hstate, lt_of_lt_of_le (lt_of_not_ge hlater) hretry⟩

theorem Framed.forget (h : Framed o s) (hcooling : Registered s r →
    ∀ u, s.cooling[(s.records r).key]? = some u → u ≤ s.clock) : Framed o (forget s r) := by
  refine ⟨fun k q hq => ?_, fun q hq => ?_, ?_, fun timer q hq => ?_, fun q => ?_,
    fun k u hk hu => ?_, h.launches, h.handed⟩
  · obtain ⟨hget, hne⟩ := forget_get_some hq h
    obtain ⟨hkey, hlt, hin⟩ := h.keyed k q hget
    rw [forget_records s hne]
    exact ⟨hkey, hlt, Finset.mem_erase.mpr ⟨hne, hin⟩⟩
  · obtain ⟨hne, hin⟩ := Finset.mem_erase.mp hq
    exact (forget_registered h).mpr ⟨h.indexed q hin, hne⟩
  · show (if s.sessions.get (s.records r).key = some r then
      s.sessions.delete (s.records r).key else s.sessions).size ≤ o.maxSessions
    have hbounded := h.bounded
    split_ifs with hin
    · have hsize := OrderedMap.size_delete hin
      omega
    · exact hbounded
  · obtain ⟨hget, hne⟩ := h.cancelled hq
    obtain ⟨hidle, hin⟩ := h.timed timer q hget
    rw [forget_records s hne]
    exact ⟨hidle, (forget_registered h).mpr ⟨hin, hne⟩⟩
  · rcases eq_or_ne q r with rfl | hne
    · rw [forget_self]
      exact (h.life q).retimed _ _
    · rw [forget_records s hne]
      exact h.life q
  · obtain ⟨q, hget, hstate, hretry⟩ := h.cooled k u hk hu
    have hkey := (h.keyed k q hget).1
    have hne : q ≠ r := by
      rintro rfl
      have hin : Registered s q := by
        rw [Registered, hkey]
        exact hget
      exact absurd (hcooling hin u (hkey.symm ▸ hk)) (not_le_of_gt hu)
    refine ⟨q, ?_, ?_⟩
    · rw [forget_get, if_neg]
      · exact hget
      · rintro ⟨-, hr⟩
        rw [hget] at hr
        cases hr
        exact hne rfl
    · rw [forget_records s hne]
      exact ⟨hstate, hretry⟩

theorem Awaited.forget {loops : List Stopping} (h : Framed o s) (hq : Awaited s loops q)
    (hr : q = r → (s.records r).state ≠ .unavailable → ∃ l ∈ loops, l.stage = .starting r) :
    Awaited (forget s r) loops q := by
  intro hout hlive
  rcases eq_or_ne q r with rfl | hne
  · rw [forget_self] at hlive
    exact hr rfl hlive
  · rw [forget_records s hne] at hlive
    refine hq (fun hin => hout ?_) hlive
    exact (forget_registered h).mpr ⟨hin, hne⟩

/-! ## Cooling down -/

theorem Framed.cool (h : Framed o s) {record : SessionRecord} (hin : Registered s r)
    (hkey : record.key = (s.records r).key) (htimer : record.idleTimer = (s.records r).idleTimer)
    (hlife : Life { record with
      state := .unavailable, retryAfter := s.clock + o.failureCooldownMs }) :
    Framed o (cool o s r record) := by
  -- What the key cooled down for before gives way to the new cooldown.
  have hwithout : Framed o { s with cooling := s.cooling.erase record.key } := by
    refine ⟨h.keyed, h.indexed, h.bounded, h.timed, h.life, fun k u hk hu => ?_, h.launches,
      h.handed⟩
    rw [Table.get_erase] at hk
    split_ifs at hk
    exact h.cooled k u hk hu
  have hc : Changes { s with cooling := s.cooling.erase record.key } r { record with
      state := .unavailable, retryAfter := s.clock + o.failureCooldownMs } := by
    refine ⟨hkey, hlife, fun u hu _ => ?_⟩
    rw [Table.get_erase, if_pos hkey] at hu
    cases hu
  have hset := hwithout.setRecord hc htimer
  refine ⟨hset.keyed, hset.indexed, hset.bounded, hset.timed, hset.life, fun k u hk hu => ?_,
    hset.launches, hset.handed⟩
  have hk' : (s.cooling.insert record.key (s.clock + o.failureCooldownMs))[k]? = some u := hk
  rw [Table.get_insert] at hk'
  split_ifs at hk' with hsame
  · cases hk'
    subst hsame
    refine ⟨r, ?_, ?_⟩
    · show s.sessions.get record.key = some r
      rw [hkey]
      exact hin
    · show ((Language.setRecord s r _).records r).state = _ ∧
        _ ≤ ((Language.setRecord s r _).records r).retryAfter
      rw [setRecord_self]
      exact ⟨rfl, le_rfl⟩
  · refine hset.cooled k u ?_ hu
    show (s.cooling.erase record.key)[k]? = some u
    rw [Table.get_erase, if_neg hsame]
    exact hk'

end Terminay.Language
