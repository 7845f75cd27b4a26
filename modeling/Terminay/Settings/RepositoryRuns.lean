import Mathlib.Data.List.Chain
import Terminay.Lib.Lists
import Terminay.Lib.Runs
import Terminay.Script.Integers
import Terminay.Settings.Defaults

/-!
# What a run of the settings repository keeps

When every commit finds in memory the very state it was built on, the commands that
were committed form a chain: each is applied to what the one before it left, the last
one made the state in memory, and their revisions grow by one.
-/

namespace Terminay.Settings
open Script Outcome

variable {ν : Type}

/-- The paths a command overwrites. -/
def SettingsCommand.touches : SettingsCommand ν → List Str → Bool
  | .set path _, q => comparable (pathParts path) q
  | .merge settings, q => covers (.obj settings) q
  | .replace _, _ => true
  | .reset none, _ => true
  | .reset (some path), q => (trim path).isEmpty || comparable (pathParts path) q

theorem editSettings_elsewhere {rules : SettingsRules ν} {current edited : SettingsObject ν}
    {command : SettingsCommand ν} (h : editSettings rules current command = .ok edited)
    {q : List Str} (hq : command.touches q = false) :
    readParts (.obj edited) q = readParts (.obj current) q := by
  cases command with
  | set path value =>
    obtain ⟨_, -, hset⟩ := bind_ok.mp h
    exact setParts_elsewhere hset hq
  | merge settings =>
    rcases q with _ | ⟨key, q⟩
    · simp [SettingsCommand.touches, covers] at hq
    · exact mergeFields_elsewhere q h hq
  | replace settings => cases hq
  | reset path =>
    rcases path with _ | path
    · cases hq
    · simp only [SettingsCommand.touches, Bool.or_eq_false_iff] at hq
      simp only [editSettings, resetPath, hq.1, Bool.false_eq_true, if_false] at h
      obtain ⟨_, -, h⟩ := bind_ok.mp h
      obtain ⟨value, -, hset⟩ := bind_ok.mp h
      exact setParts_elsewhere hset hq.2

section Conditions
variable [Engine ν]

def isMigrating : CallPhase ν → Bool
  | .backingUp _ | .migrating _ => true
  | _ => false

def migrationPending (s : SettingsRun ν) : Bool := s.calls.any fun call => isMigrating call.phase

/-- A load finds nothing in memory, or the state it publishes. -/
def loadsSame (rules : SettingsRules ν) (m : Memory ν) : Bool :=
  match m.current, rules.migrateServerSettings m.stored with
  | some current, .ok state => state = current
  | _, _ => true

/-- A commit finds the state it was built on, no success under its id, and a revision
that can still grow. -/
def commitsSame (m : Memory ν) (envelope : SettingsCommandEnvelope ν)
    (base : ServerSettingsState ν) : Bool :=
  m.current = some base && (m.outcome envelope.commandId).all (fun r => !r.isOk) &&
    base.revision < 2 ^ 53

/-- The condition of one step. While a migration is backed up and committed nothing
else happens, and both succeed. -/
def calm (rules : SettingsRules ν) (s : SettingsRun ν) : SettingsInput ν → Bool
  | .start _ => !migrationPending s
  | .complete n succeeded =>
    (!migrationPending s || (succeeded && (s.calls[n]?).any fun call => isMigrating call.phase)) &&
      match s.calls[n]? with
      | some ⟨_, .loading⟩ => !succeeded || loadsSame rules s.memory
      | some ⟨some envelope, .committing base _⟩ =>
        !succeeded || commitsSame s.memory envelope base
      | _ => true

end Conditions

section Moves
variable {calls calls' : List (SettingsCall ν)} {n : ℕ}

structure Moved (calls : List (SettingsCall ν)) (n : ℕ)
    (envelope : Option (SettingsCommandEnvelope ν)) (phase : CallPhase ν)
    (calls' : List (SettingsCall ν)) : Prop where
  self : calls'[n]? = some ⟨envelope, phase⟩
  other : ∀ k, k ≠ n → calls'[k]? = calls[k]?
  same : ∀ call, calls[n]? = some call → call.envelope = envelope

theorem moved_append (calls : List (SettingsCall ν)) (envelope : Option (SettingsCommandEnvelope ν))
    (phase : CallPhase ν) :
    Moved calls calls.length envelope phase (calls ++ [⟨envelope, phase⟩]) where
  self := List.getElem?_concat_length
  other k hk := by
    rcases Nat.lt_or_ge k calls.length with h | h
    · exact List.getElem?_append_left h
    · rw [List.getElem?_eq_none h, List.getElem?_eq_none (by simp; omega)]
  same call h := by simp at h

theorem moved_set {call : SettingsCall ν} (h : calls[n]? = some call) (phase : CallPhase ν) :
    Moved calls n call.envelope phase (calls.set n { call with phase := phase }) where
  self := by
    obtain ⟨hn, -⟩ := List.getElem?_eq_some_iff.mp h
    simp [hn]
  other k hk := List.getElem?_set_ne (Ne.symm hk)
  same other hother := by
    rw [h] at hother
    cases hother
    rfl

end Moves

section Invariant
variable [Engine ν]

/-- Memory and the file agree; a file that is not there yet reads as the defaults. -/
def Agrees (rules : SettingsRules ν) (m : Memory ν) : Prop :=
  ∀ current, m.current = some current →
    match m.stored with
    | none => rules.migrateServerSettings none = .ok current
    | some raw => sameDocument raw current = true

structure Made (rules : SettingsRules ν) (e : AppliedCommand ν) : Prop where
  next : nextState rules e.base e.envelope.command = .ok e.next
  expected : ∀ r, e.envelope.expectedRevision = some r → r = e.base.revision
  room : e.base.revision < 2 ^ 53

structure MemoryOk (rules : SettingsRules ν) (m : Memory ν) : Prop where
  made : ∀ e ∈ m.applied, Made rules e
  linked : ∀ (i : ℕ) (e e' : AppliedCommand ν), m.applied[i]? = some e → m.applied[i + 1]? = some e' → e'.base = e.next
  last : ∀ e, m.applied.getLast? = some e → m.current = some e.next
  once : ∀ (i j : ℕ) (e e' : AppliedCommand ν) (id : Str), m.applied[i]? = some e → m.applied[j]? = some e' →
    e.envelope.commandId = some id → e'.envelope.commandId = some id → i = j
  outcome : ∀ id result, m.outcomes.get id = some result → result.isOk = true →
    ∃ e ∈ m.applied, e.envelope.commandId = some id ∧ okResult e.next = result
  recorded : ∀ e ∈ m.applied, ∀ id, e.envelope.commandId = some id →
    ∃ result, m.outcomes.get id = some result ∧ result.isOk = true

def PhaseOk (rules : SettingsRules ν) (m : Memory ν) (n : ℕ) (call : SettingsCall ν) : Prop :=
  match call.phase with
  | .backingUp state | .migrating state => m.current = some state
  | .committing base next => ∀ envelope, call.envelope = some envelope →
      nextState rules base envelope.command = .ok next ∧
        ∀ r, envelope.expectedRevision = some r → r = base.revision
  | .done (.result result) => result.isOk = true →
      ∃ e ∈ m.applied, okResult e.next = result ∧ (e.call = n ∨ ∃ envelope id,
        call.envelope = some envelope ∧ envelope.commandId = some id ∧
          e.envelope.commandId = some id)
  | _ => True

structure Consistent (rules : SettingsRules ν) (m : Memory ν) (calls : List (SettingsCall ν)) :
    Prop where
  memory : MemoryOk rules m
  phases : ∀ n call, calls[n]? = some call → PhaseOk rules m n call
  callers : ∀ e ∈ m.applied, ∃ call, calls[e.call]? = some call ∧ call.envelope = some e.envelope
  agrees : (∀ call ∈ calls, isMigrating call.phase = false) → Agrees rules m

variable {rules : SettingsRules ν} {m m' : Memory ν} {calls calls' : List (SettingsCall ν)}
  {n : ℕ} {envelope : Option (SettingsCommandEnvelope ν)} {phase : CallPhase ν}

theorem consistent_start (rules : SettingsRules ν) (stored : Option (Json ν)) :
    Consistent rules (settingsStart stored).memory (settingsStart stored).calls where
  memory := by
    constructor
    case made => intro e h; cases h
    case linked => intro i e e' h; cases h
    case last => intro e h; cases h
    case once => intro i j e e' id h; cases h
    case outcome => intro id result h; cases h
    case recorded => intro e h; cases h
  phases n call h := by cases h
  callers e h := by cases h
  agrees _ current h := by cases h

omit [Engine ν] in
theorem PhaseOk.mono {call : SettingsCall ν} (h : PhaseOk rules m n call)
    (happlied : ∀ e ∈ m.applied, e ∈ m'.applied)
    (hcurrent : isMigrating call.phase = true → m'.current = m.current) :
    PhaseOk rules m' n call := by
  unfold PhaseOk at *
  split at h
  · next state hphase => exact (hcurrent (by simp [hphase, isMigrating])).trans h
  · next state hphase => exact (hcurrent (by simp [hphase, isMigrating])).trans h
  · exact h
  · intro hok
    obtain ⟨e, he, hrest⟩ := h hok
    exact ⟨e, happlied e he, hrest⟩
  · trivial

structure Sound (rules : SettingsRules ν) (m : Memory ν) (n : ℕ)
    (envelope : Option (SettingsCommandEnvelope ν)) (r : Memory ν × CallPhase ν) : Prop where
  memory : MemoryOk rules r.1
  kept : ∀ e ∈ m.applied, e ∈ r.1.applied
  fresh : ∀ e ∈ r.1.applied, e ∈ m.applied ∨ e.call = n ∧ envelope = some e.envelope
  phase : PhaseOk rules r.1 n ⟨envelope, r.2⟩
  agrees : isMigrating r.2 = false → Agrees rules r.1

theorem Consistent.moved {r : Memory ν × CallPhase ν} (h : Consistent rules m calls)
    (hm : Moved calls n envelope r.2 calls') (hr : Sound rules m n envelope r)
    (hcurrent : r.1.current = m.current ∨ ∀ call ∈ calls, isMigrating call.phase = false) :
    Consistent rules r.1 calls' where
  memory := hr.memory
  phases k call hk := by
    by_cases hkn : k = n
    · subst hkn
      rw [hm.self] at hk
      cases hk
      exact hr.phase
    · rw [hm.other k hkn] at hk
      refine (h.phases k call hk).mono hr.kept fun hmigrating => ?_
      rcases hcurrent with hsame | hquiet
      · exact hsame
      · rw [hquiet call (List.mem_of_getElem? hk)] at hmigrating
        cases hmigrating
  callers e he := by
    rcases hr.fresh e he with hold | ⟨hcall, henvelope⟩
    · obtain ⟨call, hget, hsame⟩ := h.callers e hold
      by_cases hkn : e.call = n
      · rw [hkn] at hget ⊢
        exact ⟨_, hm.self, (hm.same call hget).symm.trans hsame⟩
      · exact ⟨call, (hm.other _ hkn).trans hget, hsame⟩
    · exact ⟨_, hcall ▸ hm.self, henvelope⟩
  agrees hquiet := hr.agrees (hquiet _ (List.mem_of_getElem? hm.self))

theorem MemoryOk.stay (h : MemoryOk rules m) (hagrees : isMigrating phase = false → Agrees rules m)
    (hphase : PhaseOk rules m n ⟨envelope, phase⟩) : Sound rules m n envelope (m, phase) where
  memory := h
  kept _ he := he
  fresh _ he := .inl he
  phase := hphase
  agrees := hagrees

section Outcomes
variable (m : Memory ν) (commandId : Option Str) (result : SettingsApplyResult ν)

omit [Engine ν]

@[simp] theorem recordOutcome_current : (m.recordOutcome commandId result).current = m.current := by
  cases commandId <;> rfl

@[simp] theorem recordOutcome_stored : (m.recordOutcome commandId result).stored = m.stored := by
  cases commandId <;> rfl

@[simp] theorem recordOutcome_applied : (m.recordOutcome commandId result).applied = m.applied := by
  cases commandId <;> rfl

theorem recordOutcome_get (key : Str) : (m.recordOutcome commandId result).outcomes.get key =
    if commandId = some key then some result else m.outcomes.get key := by
  rcases commandId with _ | id
  · rfl
  · simp only [Memory.recordOutcome, OrderedMap.get_set, Option.some.injEq, eq_comm]

end Outcomes

omit [Engine ν] in
theorem MemoryOk.recordConflict (h : MemoryOk rules m) {id : Option Str}
    (hnone : m.outcome id = none) {result : SettingsApplyResult ν} (hresult : result.isOk = false) :
    MemoryOk rules (m.recordOutcome id result) := by
  constructor
  case made => simpa using h.made
  case linked => simpa using h.linked
  case last => simpa using h.last
  case once => simpa using h.once
  case outcome =>
    intro key found hfound hok
    rw [recordOutcome_get] at hfound
    rw [recordOutcome_applied]
    split_ifs at hfound
    · cases hfound
      cases hresult.symm.trans hok
    · exact h.outcome key found hfound hok
  case recorded =>
    intro e he key hkey
    rw [recordOutcome_applied] at he
    obtain ⟨found, hfound, hok⟩ := h.recorded e he key hkey
    refine ⟨found, ?_, hok⟩
    rw [recordOutcome_get]
    split_ifs with heq
    · subst heq
      cases hnone.symm.trans hfound
    · exact hfound

theorem applyOn_sound (h : MemoryOk rules m) (hagrees : Agrees rules m)
    (request : SettingsCommandEnvelope ν) (current : ServerSettingsState ν) :
    Sound rules m n (some request) (applyOn rules m request current) ∧
      (applyOn rules m request current).1.current = m.current := by
  unfold applyOn
  rcases hprior : m.outcome request.commandId with _ | prior
  · simp only
    split_ifs with hstale
    · have hmemory := h.recordConflict hprior (show (conflictWith current).isOk = false from rfl)
      refine ⟨⟨hmemory, ?_, ?_, fun hok => (by cases hok), fun _ state hstate => ?_⟩, ?_⟩
      · exact fun e he => by simpa using he
      · exact fun e he => .inl (by simpa using he)
      · rw [recordOutcome_stored]
        exact hagrees state (by simpa using hstate)
      · exact recordOutcome_current m request.commandId (conflictWith current)
    · rcases hnext : nextState rules current request.command with e | next
      · exact ⟨h.stay (fun _ => hagrees) trivial, rfl⟩
      · refine ⟨h.stay (fun _ => hagrees) ?_, rfl⟩
        rintro envelope henvelope
        cases henvelope
        refine ⟨hnext, fun r hr => ?_⟩
        simpa [isStale, hr] using hstale
  · refine ⟨h.stay (fun _ => hagrees) fun hok => ?_, rfl⟩
    rcases hid : request.commandId with _ | id
    · rw [hid] at hprior
      cases hprior
    · rw [hid] at hprior
      obtain ⟨e, he, heid, hresult⟩ := h.outcome id prior hprior hok
      exact ⟨e, he, hresult, .inr ⟨request, id, rfl, hid, heid⟩⟩

omit [Engine ν] in
theorem MemoryOk.load (h : MemoryOk rules m) {state : ServerSettingsState ν}
    (hsame : ∀ current, m.current = some current → state = current) :
    MemoryOk rules { m with current := some state, loaded := true } where
  made := h.made
  linked := h.linked
  last e he := by
    have hcurrent := h.last e he
    rw [hsame _ hcurrent]
  once := h.once
  outcome := h.outcome
  recorded := h.recorded

theorem finishLoad_sound {state : ServerSettingsState ν} (h : MemoryOk rules m)
    (hagrees : Agrees rules m) :
    Sound rules m n envelope (m, finishLoad envelope state) := by
  rcases envelope with _ | request
  · exact h.stay (fun _ => hagrees) trivial
  · exact h.stay (fun _ => hagrees) trivial

theorem Sound.of_applied {r : Memory ν × CallPhase ν} (h : Sound rules m' n envelope r)
    (happlied : m'.applied = m.applied) : Sound rules m n envelope r where
  memory := h.memory
  kept e he := h.kept e (happlied ▸ he)
  fresh e he := happlied ▸ h.fresh e he
  phase := h.phase
  agrees := h.agrees

theorem loadAnswered_sound (backup : Bool) (h : MemoryOk rules m) (hagrees : Agrees rules m)
    (hsame : loadsSame rules m = true) :
    Sound rules m n envelope (loadAnswered backup rules m envelope) := by
  unfold loadAnswered
  rcases hstate : rules.migrateServerSettings m.stored with e | state
  · exact h.stay (fun _ => hagrees) trivial
  have hcurrent : ∀ current, m.current = some current → state = current := by
    intro current hc
    simpa [loadsSame, hc, hstate] using hsame
  have hloaded := h.load hcurrent
  obtain ⟨current, loaded, outcomes, stored, applied⟩ := m
  rcases stored with _ | raw
  · refine (finishLoad_sound hloaded fun found hc => ?_).of_applied rfl
    cases hc
    exact hstate
  · simp only
    split_ifs with hdocument hbackup
    · refine (finishLoad_sound hloaded fun found hc => ?_).of_applied rfl
      cases hc
      exact hdocument
    · have hphase : PhaseOk rules ⟨some state, true, outcomes, some raw, applied⟩ n
          ⟨envelope, .backingUp state⟩ := rfl
      exact (hloaded.stay (fun hquiet => by cases hquiet) hphase).of_applied rfl
    · -- The file is old, so memory was empty and no command had been committed.
      have hempty : current = none := by
        rcases current with _ | found
        · rfl
        · have hagreed : sameDocument raw found = true := hagrees found rfl
          rw [← hcurrent found rfl] at hagreed
          exact absurd hagreed hdocument
      have hmemory : MemoryOk rules ⟨none, false, outcomes, some raw, applied⟩ :=
        ⟨h.made, h.linked, fun e he => hempty ▸ h.last e he, h.once, h.outcome, h.recorded⟩
      have hphase : PhaseOk rules ⟨none, false, outcomes, some raw, applied⟩ n
          ⟨envelope, .done .rejected⟩ := trivial
      exact (hmemory.stay (fun _ found hc => by cases hc) hphase).of_applied rfl

theorem commitMigration_sound {state : ServerSettingsState ν} (h : MemoryOk rules m)
    (hcurrent : m.current = some state) :
    Sound rules m n envelope (commitMigration m state, .auditing state false) := by
  have hmemory : MemoryOk rules (commitMigration m state) := { h with }
  have hphase : PhaseOk rules (commitMigration m state) n ⟨envelope, .auditing state false⟩ :=
    trivial
  refine (hmemory.stay (fun _ current hc => ?_) hphase).of_applied rfl
  cases hcurrent.symm.trans hc
  simp [commitMigration, sameDocument]

theorem publish_sound {request : SettingsCommandEnvelope ν} {base next : ServerSettingsState ν}
    (h : MemoryOk rules m) (hsame : commitsSame m request base = true)
    (hnext : nextState rules base request.command = .ok next)
    (hexpected : ∀ r, request.expectedRevision = some r → r = base.revision) :
    Sound rules m n (some request)
      ((publish m n request base next).recordOutcome request.commandId (okResult next),
        .done (.result (okResult next))) := by
  simp only [commitsSame, Bool.and_eq_true, decide_eq_true_eq] at hsame
  obtain ⟨⟨hcurrent, hfirst⟩, hroom⟩ := hsame
  have happlied : ((publish m n request base next).recordOutcome request.commandId
      (okResult next)).applied = m.applied ++ [⟨n, request, base, next⟩] :=
    recordOutcome_applied (publish m n request base next) _ _
  have hnew : ∀ e ∈ m.applied, ∀ id, e.envelope.commandId = some id →
      request.commandId ≠ some id := by
    intro e he id hid hsameId
    obtain ⟨found, hfound, hok⟩ := h.recorded e he id hid
    rw [hsameId] at hfirst
    simp only [Memory.outcome, Option.bind_some, hfound, Option.all_some, hok] at hfirst
    cases hfirst
  have hmemory : MemoryOk rules ((publish m n request base next).recordOutcome request.commandId
      (okResult next)) := by
    constructor
    case made =>
      intro e he
      rw [happlied, List.mem_append, List.mem_singleton] at he
      rcases he with he | rfl
      · exact h.made e he
      · exact ⟨hnext, hexpected, hroom⟩
    case linked =>
      intro i e e' he he'
      rw [happlied, Lists.get_concat] at he he'
      rcases he with he | ⟨hi, rfl⟩
      · rcases he' with he' | ⟨hi, rfl⟩
        · exact h.linked i e e' he he'
        · have hlast : m.applied.getLast? = some e := by
            rw [List.getLast?_eq_getElem?, ← hi]
            exact he
          exact Option.some.inj (hcurrent.symm.trans (h.last e hlast))
      · rcases he' with he' | ⟨hi', -⟩
        · obtain ⟨hlt, -⟩ := List.getElem?_eq_some_iff.mp he'
          omega
        · omega
    case last =>
      intro e he
      rw [happlied, List.getLast?_concat, Option.some.injEq] at he
      subst he
      rw [recordOutcome_current]
      rfl
    case once =>
      intro i j e e' id he he' hid hid'
      rw [happlied, Lists.get_concat] at he he'
      rcases he with he | ⟨hi, rfl⟩
      · rcases he' with he' | ⟨hj, rfl⟩
        · exact h.once i j e e' id he he' hid hid'
        · exact absurd hid' (hnew e (List.mem_of_getElem? he) id hid)
      · rcases he' with he' | ⟨hj, rfl⟩
        · exact absurd hid (hnew e' (List.mem_of_getElem? he') id hid')
        · omega
    case outcome =>
      intro id result hget hok
      rw [recordOutcome_get] at hget
      rw [happlied]
      split_ifs at hget with hid
      · cases hget
        exact ⟨_, List.mem_append_right _ (List.mem_singleton_self _), hid, rfl⟩
      · obtain ⟨e, he, hrest⟩ := h.outcome id result hget hok
        exact ⟨e, List.mem_append_left _ he, hrest⟩
    case recorded =>
      intro e he id hid
      rw [recordOutcome_get]
      rw [happlied, List.mem_append, List.mem_singleton] at he
      split_ifs with hsameId
      · exact ⟨_, rfl, rfl⟩
      · rcases he with he | rfl
        · exact h.recorded e he id hid
        · exact absurd hid hsameId
  refine ⟨hmemory, fun e he => ?_, fun e he => ?_, fun _ => ?_, fun _ current hc => ?_⟩
  · rw [happlied]
    exact List.mem_append_left _ he
  · rw [happlied, List.mem_append, List.mem_singleton] at he
    rcases he with he | rfl
    · exact .inl he
    · exact .inr ⟨rfl, rfl⟩
  · refine ⟨⟨n, request, base, next⟩, ?_, rfl, .inl rfl⟩
    rw [happlied]
    exact List.mem_append_right _ (List.mem_singleton_self _)
  · rw [recordOutcome_current] at hc
    cases hc
    rw [recordOutcome_stored]
    simp [publish, sameDocument]

def rejected (s : SettingsRun ν) (n : ℕ) : Bool :=
  (s.calls[n]?).any fun call => match call.phase with | .done .rejected => true | _ => false

theorem startCall_sound (h : MemoryOk rules m) (hagrees : Agrees rules m)
    (envelope : Option (SettingsCommandEnvelope ν)) :
    Sound rules m n envelope (startCall rules m envelope) ∧
      (startCall rules m envelope).1.current = m.current := by
  unfold startCall
  split
  · next current request hcurrent => exact applyOn_sound h hagrees request current
  · split_ifs with hloaded
    · exact ⟨h.stay (fun _ => hagrees) trivial, rfl⟩
    · exact ⟨h.stay (fun _ => hagrees) trivial, rfl⟩
  · exact ⟨h.stay (fun _ => hagrees) trivial, rfl⟩

theorem advance_migrating (backup : Bool) {call : SettingsCall ν} (h : MemoryOk rules m)
    (hphase : PhaseOk rules m n call) (hmigrating : isMigrating call.phase = true) :
    Sound rules m n call.envelope (advance backup rules m n call true) ∧
      (advance backup rules m n call true).1.current = m.current := by
  obtain ⟨envelope, phase⟩ := call
  cases phase with
  | backingUp state =>
    have hstays : PhaseOk rules m n ⟨envelope, .migrating state⟩ := hphase
    exact ⟨h.stay (fun hquiet => by cases hquiet) hstays, rfl⟩
  | migrating state => exact ⟨commitMigration_sound h hphase, rfl⟩
  | loading => cases hmigrating
  | auditing state failed => cases hmigrating
  | resuming state => cases hmigrating
  | committing base next => cases hmigrating
  | done answer => cases hmigrating

theorem advance_sound (backup : Bool) {call : SettingsCall ν} (h : MemoryOk rules m)
    (hagrees : Agrees rules m) (hphase : PhaseOk rules m n call)
    (hquiet : isMigrating call.phase = false) {succeeded : Bool}
    (hload : call.phase = .loading → succeeded = true → loadsSame rules m = true)
    (hcommit : ∀ request base next, call = ⟨some request, .committing base next⟩ →
      succeeded = true → commitsSame m request base = true) :
    Sound rules m n call.envelope (advance backup rules m n call succeeded) := by
  obtain ⟨envelope, phase⟩ := call
  cases phase with
  | backingUp state => cases hquiet
  | migrating state => cases hquiet
  | loading =>
    simp only [advance]
    split_ifs with hok
    · exact loadAnswered_sound backup h hagrees (hload rfl hok)
    · exact h.stay (fun _ => hagrees) trivial
  | auditing state failed =>
    rcases failed with _ | _
    · simp only [advance]
      split_ifs with hok
      · exact finishLoad_sound h hagrees
      · exact h.stay (fun _ => hagrees) trivial
    · exact h.stay (fun _ => hagrees) trivial
  | resuming state =>
    rcases envelope with _ | request
    · exact h.stay (fun _ => hagrees) trivial
    · exact (applyOn_sound h hagrees request state).1
  | committing base next =>
    rcases envelope with _ | request
    · exact h.stay (fun _ => hagrees) hphase
    · simp only [advance]
      obtain ⟨hnext, hexpected⟩ := hphase request rfl
      split_ifs with hok
      · exact publish_sound h (hcommit request base next rfl hok) hnext hexpected
      · exact h.stay (fun _ => hagrees) trivial
  | done answer => exact h.stay (fun _ => hagrees) hphase

omit [Engine ν] in
theorem migrationPending_eq_false {s : SettingsRun ν} :
    migrationPending s = false ↔ ∀ call ∈ s.calls, isMigrating call.phase = false := by
  simp [migrationPending]

omit [Engine ν] in
theorem Moved.rejected {s s' : SettingsRun ν} (h : Moved s.calls n envelope phase s'.calls) {k : ℕ}
    (hk : rejected s' k = true) : rejected s k = true ∨ phase = .done .rejected := by
  by_cases hkn : k = n
  · subst hkn
    simp only [Settings.rejected, h.self, Option.any_some] at hk
    split at hk
    · exact .inr rfl
    · cases hk
  · left
    simpa only [Settings.rejected, h.other k hkn] using hk

theorem Consistent.step {s : SettingsRun ν} (backup : Bool)
    (h : Consistent rules s.memory s.calls) (input : SettingsInput ν)
    (hcalm : calm rules s input = true) :
    Consistent rules (settingsStep backup rules s input).memory
        (settingsStep backup rules s input).calls ∧
      ∀ k, rejected (settingsStep backup rules s input) k = true →
        rejected s k = true ∨ Agrees rules (settingsStep backup rules s input).memory := by
  have hdone : ∀ {n envelope s'} {r : Memory ν × CallPhase ν}, s'.memory = r.1 →
      Moved s.calls n envelope r.2 s'.calls → Sound rules s.memory n envelope r →
      (r.1.current = s.memory.current ∨ ∀ call ∈ s.calls, isMigrating call.phase = false) →
      Consistent rules s'.memory s'.calls ∧ ∀ k, rejected s' k = true →
        rejected s k = true ∨ Agrees rules s'.memory := by
    intro n envelope s' r hs' hmoved hsound hcurrent
    refine ⟨hs' ▸ h.moved hmoved hsound hcurrent, fun k hk => ?_⟩
    rcases hmoved.rejected hk with hold | hnew
    · exact .inl hold
    · exact .inr (hs' ▸ hsound.agrees (by rw [hnew]; rfl))
  cases input with
  | start envelope =>
    have hquiet := migrationPending_eq_false.mp (by simpa [calm] using hcalm)
    obtain ⟨hsound, hcurrent⟩ := startCall_sound (n := s.calls.length) h.memory (h.agrees hquiet)
      envelope
    exact hdone rfl (moved_append s.calls envelope _) hsound (.inl hcurrent)
  | complete n succeeded =>
    simp only [settingsStep]
    rcases hcall : s.calls[n]? with _ | call
    · exact ⟨h, fun k hk => .inl hk⟩
    simp only [calm, hcall, Option.any_some, Bool.and_eq_true, Bool.or_eq_true,
      Bool.not_eq_true'] at hcalm
    obtain ⟨hquiet | ⟨hok, hmigrating⟩, hsame⟩ := hcalm
    · rw [migrationPending_eq_false] at hquiet
      have hmember := List.mem_of_getElem? hcall
      have hsound : Sound rules s.memory n call.envelope
          (advance backup rules s.memory n call succeeded) :=
        advance_sound backup h.memory (h.agrees hquiet) (h.phases n call hcall)
          (hquiet call hmember) (by
            intro hphase hok
            obtain ⟨envelope, phase⟩ := call
            subst hphase
            simpa [hok] using hsame) (by
            intro request base next hphase hok
            subst hphase
            simpa [hok] using hsame)
      exact hdone rfl (moved_set hcall _) hsound (.inr hquiet)
    · subst hok
      obtain ⟨hsound, hcurrent⟩ := advance_migrating backup h.memory (h.phases n call hcall) hmigrating
      exact hdone rfl (moved_set hcall _) hsound (.inl hcurrent)

end Invariant

section Chains
variable {rules : SettingsRules ν}

def replay (rules : SettingsRules ν) (state : ServerSettingsState ν)
    (commands : List (SettingsCommand ν)) : Except Str (ServerSettingsState ν) :=
  commands.foldlM (nextState rules) state

/-- Each of these commands was built on what the one before it left. -/
def Chained (applied : List (AppliedCommand ν)) : Prop :=
  applied.IsChain fun e e' => e'.base = e.next

structure Steady (rules : SettingsRules ν) (q : List Str) (f : Option (Json ν) → Option (Json ν)) :
    Prop where
  reads : ∀ input output, rules.normalizeServerSettings input = .ok output →
    readParts (.obj output) q = f (readParts (.obj input) q)
  twice : ∀ value, f (f value) = f value

theorem nextState_revision {current next : ServerSettingsState ν} {command : SettingsCommand ν}
    (h : nextState rules current command = .ok next) :
    next.revision = nextRevision current.revision := by
  obtain ⟨_, -, h⟩ := bind_ok.mp h
  obtain ⟨_, -, h⟩ := bind_ok.mp h
  cases h
  rfl

theorem nextState_settings {current next : ServerSettingsState ν} {command : SettingsCommand ν}
    (h : nextState rules current command = .ok next) :
    ∃ edited, editSettings rules current.settings command = .ok edited ∧
      rules.normalizeServerSettings edited = .ok next.settings := by
  obtain ⟨edited, hedited, h⟩ := bind_ok.mp h
  obtain ⟨settings, hsettings, h⟩ := bind_ok.mp h
  cases h
  exact ⟨edited, hedited, hsettings⟩

theorem Made.revision {e : AppliedCommand ν} (h : Made rules e) :
    e.next.revision = e.base.revision + 1 := by
  rw [nextState_revision h.next, nextRevision, if_pos h.room]

theorem replay_chain (later : List (AppliedCommand ν)) {e : AppliedCommand ν}
    (hmade : ∀ e' ∈ later, Made rules e') (hchain : Chained (e :: later)) :
    replay rules e.next (later.map fun e' => e'.envelope.command) =
      .ok ((e :: later).getLast (List.cons_ne_nil e later)).next := by
  induction later generalizing e with
  | nil => rfl
  | cons e' later ih =>
    obtain ⟨hbase, hrest⟩ := List.isChain_cons_cons.mp hchain
    have hfirst : nextState rules e.next e'.envelope.command = .ok e'.next :=
      hbase ▸ (hmade e' (List.mem_cons_self)).next
    rw [List.getLast_cons_cons]
    simp only [replay, List.map_cons, List.foldlM_cons, hfirst]
    exact ih (fun e'' he'' => hmade e'' (List.mem_cons_of_mem _ he'')) hrest

theorem Steady.fixed {q : List Str} {f : Option (Json ν) → Option (Json ν)} (h : Steady rules q f)
    {e : AppliedCommand ν} (he : Made rules e) :
    f (readParts (.obj e.next.settings) q) = readParts (.obj e.next.settings) q := by
  obtain ⟨edited, -, hnormal⟩ := nextState_settings he.next
  rw [h.reads edited _ hnormal, h.twice]

theorem kept_chain {q : List Str} {f : Option (Json ν) → Option (Json ν)} (hq : Steady rules q f)
    (later : List (AppliedCommand ν)) {e : AppliedCommand ν} (hmade : ∀ e' ∈ e :: later, Made rules e')
    (hchain : Chained (e :: later))
    (hlater : ∀ e' ∈ later, e'.envelope.command.touches q = false) :
    readParts (.obj ((e :: later).getLast (List.cons_ne_nil e later)).next.settings) q =
      readParts (.obj e.next.settings) q := by
  induction later generalizing e with
  | nil => rfl
  | cons e' later ih =>
    obtain ⟨hbase, hrest⟩ := List.isChain_cons_cons.mp hchain
    obtain ⟨edited, hedited, hnormal⟩ := nextState_settings (hmade e' (by simp)).next
    rw [List.getLast_cons_cons, ih (fun e'' he'' => hmade e'' (List.mem_cons_of_mem _ he'')) hrest
      (fun e'' he'' => hlater e'' (List.mem_cons_of_mem _ he'')), hq.reads edited _ hnormal,
      editSettings_elsewhere hedited (hlater e' List.mem_cons_self), hbase]
    exact hq.fixed (hmade e List.mem_cons_self)

theorem revision_lt {applied : List (AppliedCommand ν)} (hmade : ∀ e ∈ applied, Made rules e)
    (hchain : Chained applied) :
    applied.Pairwise fun e e' => e.next.revision < e'.next.revision := by
  have hsteps : applied.IsChain fun e e' => e.next.revision < e'.next.revision := by
    induction applied with
    | nil => exact .nil
    | cons e applied ih =>
      cases applied with
      | nil => exact .singleton e
      | cons e' applied =>
        obtain ⟨hbase, hrest⟩ := List.isChain_cons_cons.mp hchain
        have hgrows := (hmade e' (by simp)).revision
        rw [hbase] at hgrows
        exact .cons_cons (by omega) (ih (fun e'' he'' => hmade e'' (List.mem_cons_of_mem _ he'')) hrest)
  have : IsTrans (AppliedCommand ν) fun e e' => e.next.revision < e'.next.revision :=
    ⟨fun _ _ _ => Nat.lt_trans⟩
  exact List.isChain_iff_pairwise.mp hsteps

end Chains

section Runs
variable [Engine ν] (backup : Bool) (rules : SettingsRules ν) (stored : Option (Json ν))

abbrev afterSettings (inputs : List (SettingsInput ν)) : SettingsRun ν :=
  Runs.after (settingsStep backup rules) (settingsStart stored) inputs

def AnsweredOk (s : SettingsRun ν) (n : ℕ) (envelope : SettingsCommandEnvelope ν) (revision : ℕ)
    (cursor : Str) (state : ServerSettingsState ν) : Prop :=
  s.calls[n]? = some ⟨some envelope, .done (.result (.ok revision cursor state))⟩

structure SettingsKept (inputs : List (SettingsInput ν)) : Prop where
  /-- An ok answer tells of a command that was committed, its own or one under its id. -/
  applied : ∀ n envelope revision cursor state,
    AnsweredOk (afterSettings backup rules stored inputs) n envelope revision cursor state →
    ∃ e ∈ (afterSettings backup rules stored inputs).memory.applied,
      okResult e.next = .ok revision cursor state ∧
        e.envelope.commandId = envelope.commandId ∧
        (e.envelope = envelope ∨ envelope.commandId ≠ none)
  made : ∀ e ∈ (afterSettings backup rules stored inputs).memory.applied,
    nextState rules e.base e.envelope.command = .ok e.next
  /-- A committed command is in memory but for what later ones do to it. -/
  notLost : ∀ earlier e later,
    (afterSettings backup rules stored inputs).memory.applied = earlier ++ e :: later →
    ∃ current, (afterSettings backup rules stored inputs).memory.current = some current ∧
      replay rules e.next (later.map fun e' => e'.envelope.command) = .ok current ∧
      ∀ q f, Steady rules q f → (∀ e' ∈ later, e'.envelope.command.touches q = false) →
        readParts (.obj current.settings) q = readParts (.obj e.next.settings) q
  revisions : ∀ n n' envelope envelope' revision revision' cursor cursor' state state',
    AnsweredOk (afterSettings backup rules stored inputs) n envelope revision cursor state →
    AnsweredOk (afterSettings backup rules stored inputs) n' envelope' revision' cursor' state' →
    envelope.commandId ≠ envelope'.commandId → revision ≠ revision'
  once : ∀ (i j : ℕ) (e e' : AppliedCommand ν) (id : Str),
    (afterSettings backup rules stored inputs).memory.applied[i]? = some e →
    (afterSettings backup rules stored inputs).memory.applied[j]? = some e' →
    e.envelope.commandId = some id → e'.envelope.commandId = some id → i = j
  /-- A refusal leaves in memory what the file holds. -/
  refusals : ∀ past input later, inputs = past ++ input :: later → ∀ n,
    rejected (afterSettings backup rules stored (past ++ [input])) n = true →
    rejected (afterSettings backup rules stored past) n = false →
    Agrees rules (afterSettings backup rules stored (past ++ [input])).memory
  /-- No command was committed since the revision that a command expects. -/
  expected : ∀ earlier e later,
    (afterSettings backup rules stored inputs).memory.applied = earlier ++ e :: later →
    ∀ r, e.envelope.expectedRevision = some r → r = e.base.revision ∧
      ∀ e', earlier.getLast? = some e' → e'.next = e.base

variable {backup rules stored}

theorem settings_invariant {inputs : List (SettingsInput ν)}
    (h : Runs.Meets (settingsStep backup rules) (fun s input => calm rules s input = true)
      (settingsStart stored) inputs) :
    Consistent rules (afterSettings backup rules stored inputs).memory
      (afterSettings backup rules stored inputs).calls := by
  have hstep : ∀ s input, Consistent rules s.memory s.calls → calm rules s input = true →
      Consistent rules (settingsStep backup rules s input).memory
        (settingsStep backup rules s input).calls :=
    fun s input hs hcalm => (hs.step backup input hcalm).1
  exact Runs.invariant_of_meets (I := fun s => Consistent rules s.memory s.calls) hstep
    (consistent_start rules stored) h

omit [Engine ν] in
theorem MemoryOk.chained {m : Memory ν} (h : MemoryOk rules m) : Chained m.applied := by
  rw [Chained, List.isChain_iff_getElem]
  intro i hi
  exact h.linked i _ _ (List.getElem?_eq_getElem _) (List.getElem?_eq_getElem hi)

theorem Consistent.answered {s : SettingsRun ν} (h : Consistent rules s.memory s.calls) {n : ℕ}
    {envelope : SettingsCommandEnvelope ν} {revision : ℕ} {cursor : Str}
    {state : ServerSettingsState ν} (hn : AnsweredOk s n envelope revision cursor state) :
    ∃ e ∈ s.memory.applied, okResult e.next = .ok revision cursor state ∧
      e.envelope.commandId = envelope.commandId ∧
        (e.envelope = envelope ∨ envelope.commandId ≠ none) := by
  obtain ⟨e, he, hresult, hcall | ⟨request, id, hrequest, hid, heid⟩⟩ := h.phases n _ hn rfl
  · obtain ⟨call, hget, henvelope⟩ := h.callers e he
    rw [hcall, hn, Option.some.injEq] at hget
    subst hget
    cases henvelope
    exact ⟨e, he, hresult, rfl, .inl rfl⟩
  · cases hrequest
    refine ⟨e, he, hresult, heid.trans hid.symm, .inr ?_⟩
    rw [hid]
    exact Option.some_ne_none id

theorem settings_runs {inputs : List (SettingsInput ν)}
    (h : Runs.Meets (settingsStep backup rules) (fun s input => calm rules s input = true)
      (settingsStart stored) inputs) : SettingsKept backup rules stored inputs := by
  have hkept := settings_invariant h
  have hmade := hkept.memory.made
  have hchain := hkept.memory.chained
  constructor
  case applied => exact fun n envelope revision cursor state hn => hkept.answered hn
  case made => exact fun e he => (hmade e he).next
  case notLost =>
    intro earlier e later hsplit
    rw [hsplit] at hmade hchain
    have hsuffix : Chained (e :: later) := (List.isChain_append.mp hchain).2.1
    have hlater : ∀ e' ∈ e :: later, Made rules e' :=
      fun e' he' => hmade e' (List.mem_append_right _ he')
    have hlast := hkept.memory.last ((e :: later).getLast (List.cons_ne_nil e later)) (by
      rw [hsplit, List.getLast?_append_of_ne_nil _ (List.cons_ne_nil e later),
        List.getLast?_eq_some_getLast (List.cons_ne_nil e later)])
    refine ⟨_, hlast, ?_, fun q f hq huntouched => ?_⟩
    · exact replay_chain later (fun e' he' => hlater e' (List.mem_cons_of_mem _ he')) hsuffix
    · exact kept_chain hq later hlater hsuffix huntouched
  case revisions =>
    intro n n' envelope envelope' revision revision' cursor cursor' state state' hn hn' hids
    obtain ⟨e, he, hresult, hid, -⟩ := hkept.answered hn
    obtain ⟨e', he', hresult', hid', -⟩ := hkept.answered hn'
    have hne : e ≠ e' := by
      rintro rfl
      exact hids (hid.symm.trans hid')
    have : Std.Symm fun e e' : AppliedCommand ν => e.next.revision ≠ e'.next.revision :=
      ⟨fun _ _ => Ne.symm⟩
    have hdistinct := ((revision_lt hmade hchain).imp Nat.ne_of_lt).forall he he' hne
    cases hresult
    cases hresult'
    exact hdistinct
  case once => exact hkept.memory.once
  case refusals =>
    intro past input later hsplit n hnow hbefore
    subst hsplit
    obtain ⟨hpast, hcalm, -⟩ := Runs.meets_append.mp h
    rw [afterSettings, Runs.after_append] at hnow ⊢
    rcases ((settings_invariant hpast).step backup input hcalm).2 n hnow with hold | hagrees
    · cases hbefore.symm.trans hold
    · exact hagrees
  case expected =>
    intro earlier e later hsplit r hr
    rw [hsplit] at hmade hchain
    refine ⟨(hmade e (by simp)).expected r hr, fun e' he' => ?_⟩
    exact ((List.isChain_append.mp hchain).2.2 e' he' e rfl).symm

def completeRules : SettingsRules ℤ where
  normalizeServerSettings settings := .ok settings
  migrateServerSettings _ := .ok createInitialServerSettings
  defaultServerSettings := DEFAULT_SERVER_SETTINGS

def setFlag (id path : String) (expected : Option ℤ) : SettingsCommandEnvelope ℤ :=
  ⟨some (js id), expected, .set (js path) (.bool false)⟩

theorem settings_runs_edited : SettingsKept true completeRules none
    [.start (some (setFlag "a" "convertEol" none)), .complete 0 true, .complete 0 true,
      .complete 0 true, .start (some (setFlag "b" "dictation.enabled" (some 1))),
      .complete 1 true, .start (some (setFlag "a" "convertEol" none))] :=
  settings_runs (by decide +kernel)

abbrev overlappingApplies : List (SettingsInput ℤ) :=
    [.start none, .complete 0 true, .start (some (setFlag "a" "convertEol" none)),
      .start (some (setFlag "b" "scrollOnUserInput" none)), .complete 1 true, .complete 2 true]

/-- Two commands in flight are built on one state: the second answer loses the first. -/
theorem settings_not_kept : ¬ SettingsKept true completeRules none overlappingApplies := by
  intro h
  have hA : ∃ cursor state, AnsweredOk (afterSettings true completeRules none overlappingApplies) 1
      (setFlag "a" "convertEol" none) 1 cursor state := ⟨_, _, rfl⟩
  have hB : ∃ cursor state, AnsweredOk (afterSettings true completeRules none overlappingApplies) 2
      (setFlag "b" "scrollOnUserInput" none) 1 cursor state := ⟨_, _, rfl⟩
  obtain ⟨cursor, state, hA⟩ := hA
  obtain ⟨cursor', state', hB⟩ := hB
  exact h.revisions 1 2 _ _ 1 1 cursor cursor' state state' hA hB (by decide) rfl
end Runs

end Terminay.Settings
