import Terminay.Language.SessionLifecycle
import Terminay.Lib.Lists
import Terminay.Lib.Runs

/-!
# Runs of the language session manager

There are never more sessions than allowed and one for each project and server, and every session
that started has exited, is registered, or is told to stop once.
-/

namespace Terminay.Language
open Script

variable {o : Options} {s t : LanguageSessionManager} {r q : ℕ}

structure Keeps (o : Options) (s : LanguageSessionManager) : Prop where
  bounded : s.sessions.size ≤ o.maxSessions
  single : ∀ r q, Registered s r → Registered s q → (s.records r).key = (s.records q).key → r = q
  /-- Until it is told to stop, a session out of the maps has a loop that waits to do so. -/
  told : ∀ r, (s.records r).started = true → (s.records r).exited = true ∨ Registered s r ∨
    (s.records r).stops = 1 ∨ ∃ l ∈ s.stopping, l.stage = .starting r
  once : ∀ r, (s.records r).stops ≤ 1
  cooled : ∀ l ∈ s.launches, ∀ u ∈ l.cooling, u ≤ l.startedAt
  again : ∀ projectId provider r, s.sessions.get (sessionKey projectId provider) = some r →
    (s.records r).state = .unavailable → (s.records r).retryAfter ≤ s.clock →
      (session o s projectId provider).2 = .starting s.sequence
  timers : ∀ timer r : ℕ, s.timers[timer]? = some r → Registered s r
  handed : ∀ h ∈ s.handed, h.registered = true

def Uncooled (s : LanguageSessionManager) (r : ℕ) : Prop := Registered s r → ¬ Cooling s r

instance (s : LanguageSessionManager) (r : ℕ) : Decidable (Uncooled s r) :=
  inferInstanceAs (Decidable (_ → _))

def holds (s : LanguageSessionManager) (caller : Caller) : Option ℕ :=
  match caller.stage with
  | .starting r => if (s.records r).starting.isSome then none else some r
  | .returned r =>
    if caller.purpose ≠ .describe ∧ (s.records r).state = .ready then some r else none
  | .handed r =>
    match caller.purpose with
    | .change path _ => if ((s.records r).openDocuments.get path).isSome then some r else none
    | _ => some r
  | _ => none

def invokes (caller : Caller) : Option ℕ :=
  match caller.stage with
  | .invoking r => some r
  | _ => none

def stopsFirst (s : LanguageSessionManager) (select : SessionRecord → Bool) : Option ℕ :=
  (s.sessions.values.filter fun r => select (s.records r)).head?

/-- The moments that keep the promises. -/
def Steady (o : Options) (s : LanguageSessionManager) : Moment → Prop
  | .resumeCaller i _ => ∀ caller ∈ s.callers[i]?, ∀ r ∈ holds s caller, Registered s r
  | .answerCaller i _ => ∀ caller ∈ s.callers[i]?, ∀ r ∈ invokes caller, Registered s r
  | .root r found => (s.records r).starting = some .root → found = false → Registered s r
  | .start r succeeded =>
    (s.records r).starting = some .invocation → succeeded = false → Registered s r
  | .exit r reason => reason = .stopped → Uncooled s r
  | .closeProject projectId =>
    ∀ r ∈ stopsFirst s fun record => record.projectId == projectId, Uncooled s r
  | .hostState extensionId state =>
    state ≠ js "running" ∧ state ≠ js "starting" →
      ∀ r ∈ stopsFirst s fun record => record.extensionId == extensionId, Uncooled s r
  | .resumeStopping i => ∀ l ∈ s.stopping[i]?, l.stage = .next → ∀ r ∈ l.rest.head?, Uncooled s r
  | .fire timer => ∀ r ∈ s.timers[timer]?, Reaps o s r → Uncooled s r
  | _ => True

instance (o : Options) (s : LanguageSessionManager) :
    (moment : Moment) → Decidable (Steady o s moment)
  | .resumeCaller i _ => inferInstanceAs (Decidable
      (∀ caller ∈ s.callers[i]?, ∀ r ∈ holds s caller, Registered s r))
  | .answerCaller i _ => inferInstanceAs (Decidable
      (∀ caller ∈ s.callers[i]?, ∀ r ∈ invokes caller, Registered s r))
  | .root r found => inferInstanceAs (Decidable
      ((s.records r).starting = some .root → found = false → Registered s r))
  | .start r succeeded => inferInstanceAs (Decidable
      ((s.records r).starting = some .invocation → succeeded = false → Registered s r))
  | .exit r reason => inferInstanceAs (Decidable (reason = .stopped → Uncooled s r))
  | .closeProject projectId => inferInstanceAs (Decidable
      (∀ r ∈ stopsFirst s fun record => record.projectId == projectId, Uncooled s r))
  | .hostState extensionId state => inferInstanceAs (Decidable
      (state ≠ js "running" ∧ state ≠ js "starting" →
        ∀ r ∈ stopsFirst s fun record => record.extensionId == extensionId, Uncooled s r))
  | .resumeStopping i => inferInstanceAs (Decidable
      (∀ l ∈ s.stopping[i]?, l.stage = .next → ∀ r ∈ l.rest.head?, Uncooled s r))
  | .fire timer => inferInstanceAs (Decidable (∀ r ∈ s.timers[timer]?, Reaps o s r → Uncooled s r))
  | .time _ | .describe .. | .openDocument .. | .changeDocument .. | .closeDocument ..
  | .request .. | .answerStop _ => .isTrue trivial

/-! ## Operations on one record -/

theorem Sound.setRecord (h : Sound o s) {record : SessionRecord} (hc : Changes s r record)
    (htimer : record.idleTimer = (s.records r).idleTimer)
    (hstate : record.state ≠ .unavailable → (s.records r).state ≠ .unavailable) :
    Sound o (setRecord s r record) :=
  ⟨h.toFramed.setRecord hc htimer,
    fun q => (h.awaited q).setRecord record hc.key fun _ => hstate⟩

theorem Sound.touch (h : Sound o s) (hin : Registered s r) : Sound o (touch s r) :=
  ⟨h.toFramed.touch hin, fun q => (h.awaited q).touch⟩

theorem Sound.cool (h : Sound o s) {record : SessionRecord} (hin : Registered s r)
    (hkey : record.key = (s.records r).key) (htimer : record.idleTimer = (s.records r).idleTimer)
    (hlife : Life { record with
      state := .unavailable, retryAfter := s.clock + o.failureCooldownMs }) :
    Sound o (cool o s r record) := by
  refine ⟨h.toFramed.cool hin hkey htimer hlife, fun q => ?_⟩
  exact (h.awaited q).setRecord { record with
    state := .unavailable, retryAfter := s.clock + o.failureCooldownMs } hkey
    fun _ hlive => absurd rfl hlive

/-! ## Starting a session -/

def register (s : LanguageSessionManager) (record : SessionRecord) : LanguageSessionManager :=
  { setRecord s s.sequence record with
    sessions := s.sessions.set record.key s.sequence
    bySessionId := insert s.sequence s.bySessionId
    sequence := s.sequence + 1
    launches := s.launches ++ [⟨record.key, s.clock, s.cooling[record.key]?⟩] }

section Register

variable {record : SessionRecord}

theorem Framed.fresh (h : Framed o s) (hq : Registered s q) : q ≠ s.sequence :=
  ((h.keyed _ q hq).2.1).ne

theorem register_registered (hnone : s.sessions.get record.key = none) :
    Registered (register s record) q ↔ q = s.sequence ∨ Registered s q := by
  unfold Registered
  show (s.sessions.set record.key s.sequence).get ((setRecord s s.sequence record).records q).key =
    some q ↔ _
  rw [OrderedMap.get_set]
  rcases eq_or_ne q s.sequence with rfl | hne
  · rw [setRecord_self, if_pos rfl]
    simp
  · rw [setRecord_other s record hne]
    split_ifs with hkey
    · rw [hkey, hnone]
      constructor
      · intro heq
        cases heq
        exact absurd rfl hne
      · rintro (heq | heq)
        · exact absurd heq hne
        · cases heq
    · exact ⟨.inr, fun hor => hor.resolve_left hne⟩

theorem register_sound (h : Sound o s) (hlife : Life record)
    (hnone : s.sessions.get record.key = none) (hroom : s.sessions.size < o.maxSessions)
    (hcooled : ∀ u, s.cooling[record.key]? = some u → u ≤ s.clock) :
    Sound o (register s record) := by
  have hreg := fun q => register_registered (q := q) hnone
  have hother : ∀ q, q ≠ s.sequence → (register s record).records q = s.records q :=
    fun q hne => setRecord_other s record hne
  have hself : (register s record).records s.sequence = record := setRecord_self s s.sequence record
  have hget : ∀ k q, (register s record).sessions.get k = some q →
      k = record.key ∧ q = s.sequence ∨ s.sessions.get k = some q := by
    intro k q hq
    have hset : (s.sessions.set record.key s.sequence).get k = some q := hq
    rw [OrderedMap.get_set] at hset
    split_ifs at hset with hk
    · cases hset
      exact .inl ⟨hk, rfl⟩
    · exact .inr hset
  refine ⟨⟨fun k q hq => ?_, fun q hq => ?_, ?_, fun timer q hq => ?_, fun q => ?_,
    fun k u hk hu => ?_, fun l hl => ?_, h.handed⟩, fun q => ?_⟩
  · rcases hget k q hq with ⟨rfl, rfl⟩ | hold
    · rw [hself]
      exact ⟨rfl, Nat.lt_succ_self _, Finset.mem_insert_self _ _⟩
    · obtain ⟨hkey, hlt, hin⟩ := h.keyed k q hold
      rw [hother q hlt.ne]
      exact ⟨hkey, Nat.lt_succ_of_lt hlt, Finset.mem_insert_of_mem hin⟩
  · rw [hreg]
    rcases Finset.mem_insert.mp hq with rfl | hin
    · exact .inl rfl
    · exact .inr (h.indexed q hin)
  · show (s.sessions.set record.key s.sequence).size ≤ o.maxSessions
    rw [OrderedMap.size_set_absent hnone]
    exact hroom
  · obtain ⟨hidle, hin⟩ := h.timed timer q hq
    rw [hother q (h.toFramed.fresh hin)]
    exact ⟨hidle, (hreg q).mpr (.inr hin)⟩
  · rcases eq_or_ne q s.sequence with rfl | hne
    · rw [hself]
      exact hlife
    · rw [hother q hne]
      exact h.life q
  · obtain ⟨q, hq, hcooling⟩ := h.cooled k u hk hu
    have hne : k ≠ record.key := by
      rintro rfl
      exact absurd (hcooled u hk) (not_le_of_gt hu)
    refine ⟨q, ?_, ?_⟩
    · show (s.sessions.set record.key s.sequence).get k = some q
      rw [OrderedMap.get_set, if_neg hne]
      exact hq
    · rw [hother q (h.keyed k q hq).2.1.ne]
      exact hcooling
  · rcases List.mem_append.mp hl with hl | hl
    · exact h.launches l hl
    · rw [List.mem_singleton.mp hl]
      exact hcooled
  · intro hout hlive
    rw [hreg] at hout
    have hne : q ≠ s.sequence := fun he => hout (.inl he)
    rw [hother q hne] at hlive
    exact h.awaited q (fun hin => hout (.inr hin)) hlive

end Register

theorem Life.fresh (projectId extensionId key : Str) (now : ℚ) :
    Life { SessionRecord.unmade with
      key := key
      projectId := projectId
      extensionId := extensionId
      state := .starting
      starting := some .root
      lastActivity := now } :=
  ⟨fun _ => rfl, fun _ => ⟨rfl, nofun, nofun⟩, fun _ => rfl, nofun, Nat.zero_le 1⟩

theorem launch_sound (h : Sound o s) {projectId : Str} {provider : LanguageServerProvider}
    (hnone : s.sessions.get (sessionKey projectId provider) = none)
    (hcooled : ∀ u, s.cooling[sessionKey projectId provider]? = some u → u ≤ s.clock) :
    Sound o (launch o s projectId provider).1 := by
  unfold launch
  by_cases hfull : o.maxSessions ≤ s.sessions.size
  · simp only [if_pos hfull]
    exact h
  · simp only [if_neg hfull]
    exact register_sound h (Life.fresh _ _ _ _) hnone (not_le.mp hfull) hcooled

/-- A record whose cooldown is over gives way to a new one. -/
theorem forget_over (h : Sound o s) {k : Str} (hget : s.sessions.get k = some r)
    (hstate : (s.records r).state = .unavailable) (hover : (s.records r).retryAfter ≤ s.clock) :
    Sound o (forget s r) ∧ (forget s r).sessions.get k = none ∧
      ∀ u, (forget s r).cooling[k]? = some u → u ≤ (forget s r).clock := by
  have hkey := (h.keyed k r hget).1
  have hin : Registered s r := by
    rw [Registered, hkey]
    exact hget
  have hnot : ¬ Cooling s r := fun hcool => absurd hcool.2 (not_lt_of_ge hover)
  have hdown : ∀ u, s.cooling[(s.records r).key]? = some u → u ≤ s.clock :=
    fun u hu => h.toFramed.cooledDown hin hnot hu
  refine ⟨⟨h.toFramed.forget fun _ => hdown, fun q => ?_⟩, ?_, ?_⟩
  · exact (h.awaited q).forget h.toFramed fun _ hlive => absurd hstate hlive
  · rw [forget_get, if_pos ⟨hkey.symm, hget⟩]
  · rw [hkey] at hdown
    exact hdown

theorem session_sound (h : Sound o s) (projectId : Str) (provider : LanguageServerProvider) :
    Sound o (session o s projectId provider).1 := by
  unfold session
  rcases hget : s.sessions.get (sessionKey projectId provider) with _ | r
  · refine launch_sound h hget fun u hu => ?_
    by_contra hlater
    obtain ⟨q, hq, -⟩ := h.cooled _ u hu (lt_of_not_ge hlater)
    rw [hget] at hq
    cases hq
  · dsimp only
    split_ifs with hstate hwait hstart
    · exact h
    · obtain ⟨hforget, hnone, hcooled⟩ := forget_over h hget hstate (not_lt.mp hwait)
      exact launch_sound hforget hnone hcooled
    · exact h
    · refine h.touch ?_
      rw [Registered, (h.keyed _ r hget).1]
      exact hget

theorem session_again (h : Sound o s) {projectId : Str} {provider : LanguageServerProvider}
    (hget : s.sessions.get (sessionKey projectId provider) = some r)
    (hstate : (s.records r).state = .unavailable) (hover : (s.records r).retryAfter ≤ s.clock) :
    (session o s projectId provider).2 = .starting s.sequence := by
  have hkey := (h.keyed _ r hget).1
  have hroom : (forget s r).sessions.size < o.maxSessions := by
    show (if s.sessions.get (s.records r).key = some r then
      s.sessions.delete (s.records r).key else s.sessions).size < o.maxSessions
    rw [hkey, if_pos hget]
    have hsize := OrderedMap.size_delete hget
    have hbounded := h.bounded
    omega
  unfold session
  rw [hget]
  dsimp only
  rw [if_pos hstate, if_neg (not_lt.mpr hover), launch, if_neg (not_le.mpr hroom)]
  rfl

/-! ## The start of a session -/

theorem startFailed_sound (h : Sound o s) (hin : Registered s r)
    (hstart : (s.records r).starting.isSome = true) : Sound o (startFailed o s r) := by
  have hlife := h.life r
  obtain ⟨hnot, -, -⟩ := hlife.pending hstart
  refine h.cool hin rfl rfl ⟨nofun, nofun, nofun, fun _ hstarted => ?_, hlife.once⟩
  exact absurd (hnot.symm.trans hstarted) nofun

theorem answerRoot_sound (h : Sound o s) {found : Bool}
    (hfail : (s.records r).starting = some .root → found = false → Registered s r) :
    Sound o (answerRoot o s r found) := by
  unfold answerRoot
  split_ifs with hroot hfound
  · have hlife := h.life r
    have hstart : (s.records r).starting.isSome = true := by rw [hroot]; rfl
    refine h.setRecord ⟨rfl, ⟨fun _ => rfl, fun _ => hlife.pending hstart,
      fun _ => hlife.unstopped (.inl hstart), hlife.finished, hlife.once⟩, fun _ _ hcool => hcool⟩ rfl
      fun hlive => hlive
  · refine startFailed_sound h (hfail hroot (by simpa using hfound)) ?_
    rw [hroot]
    rfl
  · exact h

theorem answerStart_sound (h : Sound o s) {succeeded : Bool}
    (hfail : (s.records r).starting = some .invocation → succeeded = false → Registered s r) :
    Sound o (answerStart o s r succeeded) := by
  unfold answerStart
  split_ifs with hinvoked hsucceeded
  · have hlife := h.life r
    have hstart : (s.records r).starting.isSome = true := by rw [hinvoked]; rfl
    obtain ⟨-, -, hexited⟩ := hlife.pending hstart
    refine h.setRecord ⟨rfl, ⟨?_, nofun, fun _ => hlife.unstopped (.inl hstart), ?_, hlife.once⟩,
      fun u _ hcool => ?_⟩ rfl ?_
    · intro hstate
      dsimp only at hstate
      split_ifs at hstate with hbegins
      exact absurd hstate hbegins
    · intro hstate _
      dsimp only at hstate
      split_ifs at hstate
      exact .inl (hexited hstate)
    · dsimp only
      rw [if_neg (by rw [hcool.1]; nofun)]
      exact hcool
    · dsimp only
      intro hlive hgone
      rw [if_neg (by rw [hgone]; nofun)] at hlive
      exact hlive hgone
  · refine startFailed_sound h (hfail hinvoked (by simpa using hsucceeded)) ?_
    rw [hinvoked]
    rfl
  · exact h

/-! ## Callers -/

theorem Sound.withCallers (h : Sound o s) (callers : List Caller) :
    Sound o { s with callers := callers } :=
  ⟨⟨h.keyed, h.indexed, h.bounded, h.timed, h.life, h.cooled, h.launches, h.handed⟩, h.awaited⟩

theorem call_sound (h : Sound o s) (projectId : Str) (provider : Option LanguageServerProvider) :
    Sound o (call o s projectId provider).1 := by
  cases provider with
  | none => exact h
  | some provider => exact session_sound h projectId provider

theorem addCaller_sound {called : LanguageSessionManager × CallerStage} (h : Sound o called.1)
    (projectId : Str) (purpose : Purpose) : Sound o (addCaller projectId purpose called) :=
  h.withCallers _

theorem setStage_sound (h : Sound o s) (i : ℕ) (caller : Caller) (stage : CallerStage) :
    Sound o (setStage s i caller stage) := h.withCallers _

theorem describe_sound (h : Sound o s) (projectId path : Str) (servers : Servers) :
    Sound o (describe o s projectId path servers).1 := by
  unfold describe
  split
  · exact h
  · dsimp only
    split
    · exact addCaller_sound (call_sound h _ _) _ _
    · exact h

theorem Sound.used (h : Sound o s) (r : ℕ) (documents : OrderedMap Str ℚ) (inFlight : ℤ) :
    Sound o (Language.setRecord s r
      { s.records r with openDocuments := documents, inFlight := inFlight }) := by
  have hlife := h.life r
  exact h.setRecord ⟨rfl, ⟨hlife.begins, hlife.pending, hlife.unstopped, hlife.finished, hlife.once⟩,
    fun _ _ hcool => hcool⟩ rfl fun hlive => hlive

theorem Registered.used (hin : Registered s q) (r : ℕ) (documents : OrderedMap Str ℚ)
    (inFlight : ℤ) : Registered (Language.setRecord s r
      { s.records r with openDocuments := documents, inFlight := inFlight }) q := by
  rw [setRecord_registered]
  · exact hin
  · rfl

theorem invoke_sound (h : Sound o s) (hin : Registered s r) : Sound o (invoke s r) :=
  (h.used r _ _).touch (hin.used r _ _)

theorem invoked_sound (h : Sound o s) (hin : Registered s r) : Sound o (invoked s r) :=
  (h.used r _ _).touch (hin.used r _ _)

theorem handed_sound (h : Sound o s) (hin : Registered s r) :
    Sound o { s with handed := s.handed ++ [⟨r, decide (Registered s r)⟩] } := by
  refine ⟨⟨h.keyed, h.indexed, h.bounded, h.timed, h.life, h.cooled, h.launches, fun e he => ?_⟩,
    h.awaited⟩
  rcases List.mem_append.mp he with he | he
  · exact h.handed e he
  · rw [List.mem_singleton.mp he]
    exact decide_eq_true hin

theorem resumeCaller_sound (h : Sound o s) (i : ℕ) (caller : Caller) (servers : Servers)
    (hholds : ∀ r ∈ holds s caller, Registered s r) :
    Sound o (resumeCaller o s i caller servers) := by
  unfold resumeCaller
  unfold holds at hholds
  rcases hstage : caller.stage with r | r | r | r | r | _ | message
  · simp only [hstage] at hholds ⊢
    split_ifs with hstart
    · exact h
    · rw [if_neg hstart] at hholds
      exact setStage_sound (h.touch (hholds r rfl)) _ _ _
  · simp only [hstage] at hholds ⊢
    split_ifs with hdescribe hready
    · exact setStage_sound h _ _ _
    · rw [if_pos ⟨hdescribe, hready⟩] at hholds
      exact setStage_sound (handed_sound h (hholds r rfl)) _ _ _
    · exact setStage_sound h _ _ _
  · simp only [hstage] at hholds ⊢
    rcases hpurpose : caller.purpose with _ | ⟨path, revision⟩ | ⟨path, revision⟩ | _ | _
    · simp only [hpurpose] at hholds ⊢
      exact setStage_sound (invoke_sound h (hholds r rfl)) _ _ _
    · simp only [hpurpose] at hholds ⊢
      exact setStage_sound (invoke_sound h (hholds r rfl)) _ _ _
    · simp only [hpurpose] at hholds ⊢
      split_ifs with hopen
      · rw [if_pos hopen] at hholds
        exact setStage_sound (invoke_sound h (hholds r rfl)) _ _ _
      · exact setStage_sound (call_sound h _ _) _ _ _
    · simp only [hpurpose] at hholds ⊢
      exact setStage_sound (invoke_sound h (hholds r rfl)) _ _ _
    · simp only [hpurpose] at hholds ⊢
      exact setStage_sound (invoke_sound h (hholds r rfl)) _ _ _
  · exact h
  · dsimp only
    split
    · exact setStage_sound (h.used r _ _) _ _ _
    · exact setStage_sound (h.used r _ _) _ _ _
    · exact setStage_sound h _ _ _
  · exact h
  · exact h

theorem answerCaller_sound (h : Sound o s) (i : ℕ) (caller : Caller) (failure : Option Str)
    (hinvokes : ∀ r ∈ invokes caller, Registered s r) :
    Sound o (answerCaller s i caller failure) := by
  unfold answerCaller
  split
  · rename_i r hstage
    have hin : Registered s r := hinvokes r (by simp [invokes, hstage])
    cases failure with
    | none => exact setStage_sound (invoked_sound h hin) _ _ _
    | some message => exact setStage_sound (invoked_sound h hin) _ _ _
  · exact h

theorem closeDocument_sound (h : Sound o s) (projectId path : Str) (servers : Servers) :
    Sound o (closeDocument o s projectId path servers) := by
  unfold closeDocument
  split
  · exact h
  · split
    · exact h
    · rename_i provider _ r hget
      split_ifs
      · have hin : Registered s r := by
          rw [Registered, (h.keyed _ r hget).1]
          exact hget
        have hused := h.used r ((s.records r).openDocuments.delete path) (s.records r).inFlight
        exact addCaller_sound (invoke_sound hused (hin.used r _ _)) _ _
      · exact h

/-! ## Stops -/

def Stopped (o : Options) (s : LanguageSessionManager)
    (stopped : LanguageSessionManager × StopStage) : Prop :=
  Framed o stopped.1 ∧ stopped.1.stopping = s.stopping ∧
    ∀ q, Awaited stopped.1 (⟨stopped.2, []⟩ :: s.stopping) q

theorem Awaited.mono {loops loops' : List Stopping} (h : Awaited s loops q)
    (hloops : ∀ l ∈ loops, l.stage = .starting q → ∃ l' ∈ loops', l'.stage = .starting q) :
    Awaited s loops' q := by
  intro hout hlive
  obtain ⟨l, hl, hstage⟩ := h hout hlive
  exact hloops l hl hstage

theorem stopStarted_stopped (h : Framed o s) {loops : List Stopping}
    (hstart : (s.records r).starting.isSome = false) (hstopping : s.stopping = loops)
    (hother : ∀ q, q ≠ r → Awaited s loops q) :
    Framed o (stopStarted s r).1 ∧ (stopStarted s r).1.stopping = loops ∧
      ((stopStarted s r).1.records r).state = .unavailable ∧
      ∀ q, Awaited (stopStarted s r).1 loops q := by
  have hlife := h.life r
  unfold stopStarted
  dsimp only
  split_ifs with hready
  · have hc : Changes s r { s.records r with
        state := .unavailable
        reason := some .stopped
        stops := (s.records r).stops + 1 } := by
      have hstops := hlife.unstopped (.inr hready)
      refine ⟨rfl, ⟨nofun, fun hstarting => ?_, ?_, fun _ _ => .inr ?_, ?_⟩, fun u _ hcool => ?_⟩
      · exact absurd (hstart.symm.trans hstarting) nofun
      · rintro (hstarting | hstate)
        · exact absurd (hstart.symm.trans hstarting) nofun
        · cases hstate
      · show (s.records r).stops + 1 = 1
        omega
      · show (s.records r).stops + 1 ≤ 1
        omega
      · exact absurd (hready.symm.trans hcool.1) nofun
    refine ⟨h.setRecord hc rfl, hstopping, ?_, fun q => ?_⟩
    · rw [setRecord_self]
    · rcases eq_or_ne q r with rfl | hne
      · intro _ hlive
        rw [setRecord_self] at hlive
        exact absurd rfl hlive
      · exact (hother q hne).setRecord _ rfl fun he => absurd he hne
  · have hstate : (s.records r).state = .unavailable := by
      rcases hstate : (s.records r).state with _ | _ | _
      · have hbegins := hlife.begins hstate
        exact absurd (hstart.symm.trans hbegins) nofun
      · exact absurd hstate hready
      · rfl
    refine ⟨h, hstopping, hstate, fun q => ?_⟩
    rcases eq_or_ne q r with rfl | hne
    · exact fun _ hlive => absurd hstate hlive
    · exact hother q hne

theorem stopSession_stopped (h : Sound o s) (hcool : Uncooled s r) :
    Stopped o s (stopSession s r) := by
  have hforget : Framed o (forget s r) :=
    h.toFramed.forget fun hin u hu => h.toFramed.cooledDown hin (hcool hin) hu
  have hother : ∀ q, q ≠ r → Awaited (forget s r) s.stopping q := fun q hne =>
    (h.awaited q).forget h.toFramed fun he => absurd he hne
  unfold stopSession
  dsimp only
  split_ifs with hstart
  · refine ⟨hforget, rfl, fun q => ?_⟩
    rcases eq_or_ne q r with rfl | hne
    · exact fun _ _ => ⟨_, List.mem_cons_self, rfl⟩
    · exact (hother q hne).mono fun l hl hstage => ⟨l, List.mem_cons_of_mem _ hl, hstage⟩
  · have hstart' : ((forget s r).records r).starting.isSome = false := by
      rw [forget_self]
      simpa using hstart
    obtain ⟨hframed, hstopping, -, hawaited⟩ := stopStarted_stopped hforget hstart' rfl hother
    refine ⟨hframed, hstopping, fun q => ?_⟩
    exact (hawaited q).mono fun l hl hstage => ⟨l, List.mem_cons_of_mem _ hl, hstage⟩

theorem stopNext_stopped (h : Sound o s) {rest : List ℕ} (hcool : ∀ r ∈ rest.head?, Uncooled s r) :
    Framed o (stopNext s rest).1 ∧ (stopNext s rest).1.stopping = s.stopping ∧
      ∀ q, Awaited (stopNext s rest).1 ((stopNext s rest).2 :: s.stopping) q := by
  cases rest with
  | nil =>
    refine ⟨h.toFramed, rfl, fun q => ?_⟩
    exact (h.awaited q).mono fun l hl hstage => ⟨l, List.mem_cons_of_mem _ hl, hstage⟩
  | cons r rest =>
    obtain ⟨hframed, hstopping, hawaited⟩ := stopSession_stopped h (hcool r rfl)
    refine ⟨hframed, hstopping, fun q => ?_⟩
    refine (hawaited q).mono fun l hl hstage => ?_
    rcases List.mem_cons.mp hl with rfl | hl
    · exact ⟨_, List.mem_cons_self, hstage⟩
    · exact ⟨l, List.mem_cons_of_mem _ hl, hstage⟩

theorem Framed.withStopping (h : Framed o s) (stopping : List Stopping) :
    Framed o { s with stopping := stopping } :=
  ⟨h.keyed, h.indexed, h.bounded, h.timed, h.life, h.cooled, h.launches, h.handed⟩

theorem addStopping_sound (h : Sound o s) {rest : List ℕ} (hcool : ∀ r ∈ rest.head?, Uncooled s r) :
    Sound o (addStopping (stopNext s rest)) := by
  obtain ⟨hframed, hstopping, hawaited⟩ := stopNext_stopped h hcool
  refine ⟨hframed.withStopping _, fun q => (hawaited q).mono fun l hl hstage => ⟨l, ?_, hstage⟩⟩
  show l ∈ (stopNext s rest).1.stopping ++ [(stopNext s rest).2]
  rw [hstopping]
  rcases List.mem_cons.mp hl with rfl | hl
  · exact List.mem_append_right _ List.mem_cons_self
  · exact List.mem_append_left _ hl

theorem replaced {loops : List Stopping} {i : ℕ} {loop next : Stopping} (hi : loops[i]? = some loop)
    (hloop : loop.stage ≠ .starting q) {l : Stopping} (hl : l ∈ next :: loops)
    (hstage : l.stage = .starting q) : ∃ l' ∈ loops.set i next, l'.stage = .starting q := by
  rcases List.mem_cons.mp hl with rfl | hl
  · exact ⟨l, List.mem_set (List.getElem?_eq_some_iff.mp hi).1 _, hstage⟩
  · refine ⟨l, Lists.mem_set_of_key (f := Stopping.stage) hi hl ?_, hstage⟩
    rw [hstage]
    exact Ne.symm hloop

theorem resumeStopping_sound (h : Sound o s) {i : ℕ} {loop : Stopping}
    (hi : s.stopping[i]? = some loop)
    (hcool : loop.stage = .next → ∀ r ∈ loop.rest.head?, Uncooled s r) :
    Sound o (resumeStopping s i loop) := by
  unfold resumeStopping
  split
  · rename_i hstage
    obtain ⟨hframed, hstopping, hawaited⟩ := stopNext_stopped h (hcool hstage)
    refine ⟨hframed.withStopping _, fun q => (hawaited q).mono fun l hl hl' => ?_⟩
    show ∃ l' ∈ (stopNext s loop.rest).1.stopping.set i (stopNext s loop.rest).2, _
    rw [hstopping]
    exact replaced hi (by rw [hstage]; nofun) hl hl'
  · rename_i r hstage
    split_ifs with hstart
    · exact h
    · obtain ⟨hframed, hstopping, hstate, hawaited⟩ :=
        stopStarted_stopped h.toFramed (by simpa using hstart) rfl fun q _ => h.awaited q
      refine ⟨hframed.withStopping _, fun q => ?_⟩
      rcases eq_or_ne q r with rfl | hne
      · exact fun _ hlive => absurd hstate hlive
      · refine (hawaited q).mono fun l hl hl' => ?_
        show ∃ l' ∈ (stopStarted s r).1.stopping.set i ⟨(stopStarted s r).2, loop.rest⟩, _
        rw [hstopping]
        refine replaced hi ?_ (List.mem_cons_of_mem _ hl) hl'
        rw [hstage]
        intro heq
        cases heq
        exact hne rfl
  · exact h

theorem answerStop_sound (h : Sound o s) {i : ℕ} {loop : Stopping}
    (hi : s.stopping[i]? = some loop) : Sound o (answerStop s i loop) := by
  unfold answerStop
  split
  · rename_i r hstage
    refine ⟨h.toFramed.withStopping _, fun q => (h.awaited q).mono fun l hl hl' => ?_⟩
    exact replaced hi (by rw [hstage]; nofun) (List.mem_cons_of_mem _ hl) hl'
  · exact h

/-! ## Exits and timers -/

theorem failSession_sound (h : Sound o s) (reason : ExitReason)
    (hcool : reason = .stopped → Uncooled s r) : Sound o (failSession o s r reason) := by
  have hlife := h.life r
  unfold failSession
  dsimp only
  split_ifs with hin hstopped
  · have hregistered := h.indexed r hin
    have hc : Changes s r { s.records r with
        exited := true, state := .unavailable, reason := some reason.reason,
        openDocuments := .empty } := by
      refine ⟨rfl, ⟨nofun, fun hstart => ?_, ?_, fun _ _ => .inl rfl, hlife.once⟩, fun u _ hcool => ?_⟩
      · exact ⟨(hlife.pending hstart).1, nofun, fun _ => rfl⟩
      · rintro (hstart | hstate)
        · exact hlife.unstopped (.inl hstart)
        · cases hstate
      · exact ⟨rfl, hcool.2⟩
    have hset := h.setRecord hc rfl fun hlive => absurd rfl hlive
    refine ⟨hset.toFramed.forget fun _ u hu => ?_, fun q => ?_⟩
    · rw [setRecord_self] at hu
      exact h.toFramed.cooledDown hregistered (hcool hstopped hregistered) hu
    · refine (hset.awaited q).forget hset.toFramed fun _ hlive => ?_
      rw [setRecord_self] at hlive
      exact absurd rfl hlive
  · refine h.cool (h.indexed r hin) rfl rfl ⟨nofun, fun hstart => ?_, ?_, fun _ _ => .inl rfl,
      hlife.once⟩
    · exact ⟨(hlife.pending hstart).1, nofun, fun _ => rfl⟩
    · rintro (hstart | hstate)
      · exact hlife.unstopped (.inl hstart)
      · cases hstate
  · refine h.setRecord ⟨rfl, ⟨hlife.begins, fun hstart => ?_, hlife.unstopped,
      fun _ _ => .inl rfl, hlife.once⟩, fun _ _ hcool => hcool⟩ rfl fun hlive => hlive
    exact ⟨(hlife.pending hstart).1, (hlife.pending hstart).2.1, fun _ => rfl⟩

theorem fire_sound (h : Sound o s) (timer : ℕ)
    (hcool : ∀ r ∈ s.timers[timer]?, Reaps o s r → Uncooled s r) : Sound o (fire o s timer) := by
  unfold fire
  split
  · exact h
  · rename_i r hget
    obtain ⟨hidle, hin⟩ := h.timed timer r hget
    have hc : Changes s r { s.records r with idleTimer := none } :=
      ⟨rfl, (h.life r).retimed _ _, fun _ _ hcooling => hcooling⟩
    have hquiet : Framed o { setRecord s r { s.records r with idleTimer := none } with
        timers := s.timers.erase timer } := by
      refine h.toFramed.retime hc _ s.nextTimer fun timer' q hq => ?_
      rw [Table.get_erase] at hq
      split_ifs at hq with hne
      refine .inl ⟨hq, ?_⟩
      rintro rfl
      have hidle' := (h.timed timer' q hq).1
      rw [hidle, Option.some.injEq] at hidle'
      exact hne hidle'
    have hsound : Sound o { setRecord s r { s.records r with idleTimer := none } with
        timers := s.timers.erase timer } :=
      ⟨hquiet, fun q => (h.awaited q).setRecord { s.records r with idleTimer := none } rfl
        fun _ hlive => hlive⟩
    have hself : ∀ timers : Table.Of ℕ ℕ,
        ({ setRecord s r { s.records r with idleTimer := none } with timers := timers } :
          LanguageSessionManager).records r = { s.records r with idleTimer := none } :=
      fun _ => setRecord_self s r _
    have hsame : Registered { setRecord s r { s.records r with idleTimer := none } with
        timers := s.timers.erase timer } r := by
      rw [Registered, hself]
      exact hin
    dsimp only
    split_ifs with hreaps
    · refine addStopping_sound hsound fun q hq => ?_
      cases hq
      rw [Reaps, hself] at hreaps
      intro _ hcooling
      rw [Cooling, hself] at hcooling
      exact hcool r hget hreaps hin hcooling
    · exact hsound.touch hsame

/-! ## Runs -/

theorem stopAll_sound (h : Sound o s) (select : SessionRecord → Bool)
    (hcool : ∀ r ∈ stopsFirst s select, Uncooled s r) : Sound o (stopAll s select) :=
  addStopping_sound h hcool

theorem step_sound (h : Sound o s) (moment : Moment) (hsteady : Steady o s moment) :
    Sound o (step o s moment) := by
  cases moment with
  | time now =>
    refine ⟨⟨h.keyed, h.indexed, h.bounded, h.timed, h.life, fun k u hk hu => ?_, h.launches,
      h.handed⟩, h.awaited⟩
    exact h.cooled k u hk (lt_of_le_of_lt (le_max_left _ _) hu)
  | describe projectId path servers => exact describe_sound h projectId path servers
  | openDocument projectId path revision servers => exact addCaller_sound (call_sound h _ _) _ _
  | changeDocument projectId path revision servers => exact addCaller_sound (call_sound h _ _) _ _
  | closeDocument projectId path servers => exact closeDocument_sound h projectId path servers
  | request projectId path servers => exact addCaller_sound (call_sound h _ _) _ _
  | closeProject projectId => exact stopAll_sound h _ hsteady
  | hostState extensionId state =>
    simp only [step]
    split_ifs with hup
    · exact h
    · exact stopAll_sound h _ (hsteady (not_or.mp hup))
  | root r found => exact answerRoot_sound h hsteady
  | start r succeeded => exact answerStart_sound h hsteady
  | exit r reason => exact failSession_sound h reason hsteady
  | resumeCaller i servers =>
    simp only [step]
    split
    · rename_i caller hi
      exact resumeCaller_sound h i caller servers (hsteady caller hi)
    · exact h
  | answerCaller i failure =>
    simp only [step]
    split
    · rename_i caller hi
      exact answerCaller_sound h i caller failure (hsteady caller hi)
    · exact h
  | resumeStopping i =>
    simp only [step]
    split
    · rename_i loop hi
      exact resumeStopping_sound h hi (hsteady loop hi)
    · exact h
  | answerStop i =>
    simp only [step]
    split
    · rename_i loop hi
      exact answerStop_sound h hi
    · exact h
  | fire timer => exact fire_sound h timer hsteady

theorem new_sound (o : Options) (now : ℚ) : Sound o (.new now) := by
  refine ⟨⟨fun k r hget => ?_, fun r hr => ?_, Nat.zero_le _, fun timer r hget => ?_,
    fun r => Life.unmade, fun k u hget _ => ?_, nofun, nofun⟩, fun r _ hlive => absurd rfl hlive⟩
  · cases hget
  · exact absurd hr (Finset.notMem_empty r)
  · have hnone : (∅ : Table.Of ℕ ℕ)[timer]? = none := Std.ExtTreeMap.getElem?_empty
    exact absurd (hnone.symm.trans hget) nofun
  · have hnone : (∅ : Table.Of Str ℚ)[k]? = none := Std.ExtTreeMap.getElem?_empty
    exact absurd (hnone.symm.trans hget) nofun

theorem Sound.keeps (h : Sound o s) : Keeps o s := by
  refine ⟨h.bounded, fun r q hr hq hkey => ?_, fun r hstarted => ?_, fun r => (h.life r).once,
    h.launches, fun projectId provider r => session_again h, fun timer r ht => (h.timed timer r ht).2,
    h.handed⟩
  · rw [Registered, hkey] at hr
    exact Option.some.inj (hr.symm.trans hq)
  · have hlife := h.life r
    by_cases hin : Registered s r
    · exact .inr (.inl hin)
    · by_cases hstate : (s.records r).state = .unavailable
      · rcases hlife.finished hstate hstarted with hexited | hstops
        · exact .inl hexited
        · exact .inr (.inr (.inl hstops))
      · exact .inr (.inr (.inr (h.awaited r hin hstate)))

/-- In a run of steady moments the manager keeps its bounds, ends every session it started, waits
for cooldowns, and leaves no timer and no caller with a record that left the maps. -/
theorem manager_runs (o : Options) (now : ℚ) (moments : List Moment)
    (h : Runs.Meets (step o) (Steady o) (LanguageSessionManager.new now) moments) :
    Keeps o (Runs.after (step o) (LanguageSessionManager.new now) moments) := by
  have hrun : Sound o (Runs.after (step o) (LanguageSessionManager.new now) moments) :=
    Runs.invariant_of_meets (I := fun s => Sound o s)
      (fun s moment hs hsteady => step_sound hs moment hsteady) (new_sound o now) h
  exact hrun.keeps

def eightSessions : Options where
  maxSessions := 8
  idleMs := 300000
  failureCooldownMs := 30000
  toLowerCase := id

def typescript : Servers := fun selector =>
  if selector = js ".ts" then [⟨js "ext", js "ext:ts", [js "typescript"]⟩] else []

def reapedAfterUse : List Moment :=
  [.openDocument (js "p") (js "a.ts") 1 typescript, .root 0 true, .start 0 true,
    .resumeCaller 0 typescript, .resumeCaller 0 typescript, .resumeCaller 0 typescript,
    .answerCaller 0 none, .resumeCaller 0 typescript, .closeDocument (js "p") (js "a.ts") typescript,
    .answerCaller 1 none, .time 300000, .fire 4, .answerStop 0]

theorem manager_runs_reaped :
    Keeps eightSessions
      (Runs.after (step eightSessions) (LanguageSessionManager.new 0) reapedAfterUse) :=
  manager_runs eightSessions 0 reapedAfterUse (by decide +kernel)

def stoppedWhileStarting : List Moment :=
  [.openDocument (js "p") (js "a.ts") 1 typescript, .root 0 true,
    .hostState (js "ext") (js "stopped"), .start 0 true, .resumeCaller 0 typescript]

theorem timer_armed_unregistered :
    ¬ Keeps eightSessions
      (Runs.after (step eightSessions) (LanguageSessionManager.new 0) stoppedWhileStarting) := by
  have harmed : (Runs.after (step eightSessions) (LanguageSessionManager.new 0)
      stoppedWhileStarting).timers[0]? = some 0 := by decide +kernel
  have hout : ¬ Registered (Runs.after (step eightSessions) (LanguageSessionManager.new 0)
      stoppedWhileStarting) 0 := by decide +kernel
  exact fun h => hout (h.timers 0 0 harmed)

end Terminay.Language
