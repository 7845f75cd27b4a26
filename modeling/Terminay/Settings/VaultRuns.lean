import Terminay.Lib.Runs
import Terminay.Settings.VaultSealing

/-!
# What a run of the passphrase vault keeps

While the calls that write do not overlap, and the vault is not locked in the middle of a
rotation, the envelope in memory is the one last written.
-/

namespace Terminay.Settings
open Script Outcome

variable {τ : Type} {p : VaultPlatform τ}

def isPublishing : VaultPhase τ → Bool
  | .derivingFirst _ _ _ | .creating _ _ _ | .writing _ _ | .rotating _ _ => true
  | .derivingKey _ _ | .done _ => false

def isRotating : VaultPhase τ → Bool
  | .rotating _ _ => true
  | _ => false

/-- The clock of a write reads a time that can be stored. -/
def clockReads : VaultOperation → Bool
  | .put _ now | .replace _ now => isStoredTime (updatedAt now)
  | _ => true

/-- The condition of one step. -/
def apart (p : VaultPlatform τ) (s : VaultRun τ) : VaultInput → Bool
  | .start operation => clockReads operation &&
      (!isPublishing (begin p s.vault operation).2 || !s.calls.any isPublishing)
  | .complete _ _ => true
  | .lock => !s.calls.any isRotating

section Invariant
variable {v : HeadlessVault τ}

structure VaultOk (p : VaultPlatform τ) (v : HeadlessVault τ) : Prop where
  stored : v.stored = v.envelope
  empty : v.envelope = none → v.implied = .empty ∧ v.dataEncryptionKey = none
  holds : ∀ e, v.envelope = some e → ∃ passphrase K, v.passphrase = some passphrase ∧
    Holds p passphrase K v.implied e ∧ (v.dataEncryptionKey = none ∨
      v.dataEncryptionKey = some K ∧
        v.protectorKey = some (p.scrypt passphrase e.keyEnvelope.salt))

def VaultPhaseOk (p : VaultPlatform τ) (v : HeadlessVault τ) : VaultPhase τ → Prop
  | .derivingFirst _ dataKey salt => v.envelope = none ∧ dataKey.length = 32 ∧ salt.length = 16
  | .derivingKey _ salt => ∃ e, v.envelope = some e ∧ e.keyEnvelope.salt = salt
  | .creating candidate passphrase key => v.envelope = none ∧
      Holds p passphrase key .empty candidate
  | .writing change candidate => ∃ e passphrase K, v.envelope = some e ∧
      v.passphrase = some passphrase ∧ Holds p passphrase K v.implied e ∧
      Holds p passphrase K (applyChange v.implied change) candidate ∧
      candidate.keyEnvelope.salt = e.keyEnvelope.salt
  | .rotating candidate nextKey => ∃ e passphrase, v.envelope = some e ∧
      v.passphrase = some passphrase ∧ Holds p passphrase nextKey v.implied candidate ∧
      candidate.keyEnvelope.salt = e.keyEnvelope.salt ∧ v.dataEncryptionKey ≠ none
  | .done _ => True

theorem VaultOk.key (h : VaultOk p v) {key : Bytes} (hkey : requireKey v = .ok key) :
    ∃ e passphrase, v.envelope = some e ∧ v.passphrase = some passphrase ∧
      Holds p passphrase key v.implied e ∧ v.dataEncryptionKey = some key ∧
      v.protectorKey = some (p.scrypt passphrase e.keyEnvelope.salt) := by
  obtain ⟨_, -, hdemand⟩ := bind_ok.mp hkey
  have hsome : v.dataEncryptionKey = some key := demand_ok.mp hdemand
  rcases henvelope : v.envelope with _ | e
  · cases hsome.symm.trans (h.empty henvelope).2
  · obtain ⟨passphrase, K, hpassphrase, hholds, hnone | ⟨hK, hprotector⟩⟩ := h.holds e henvelope
    · cases hnone.symm.trans hsome
    · cases hK.symm.trans hsome
      exact ⟨e, passphrase, rfl, hpassphrase, hholds, hsome, hprotector⟩

variable {n : ℕ}

theorem firstEnvelope_holds (passphrase : Bytes) {dataKey salt : Bytes} (hkey : dataKey.length = 32)
    (hsalt : salt.length = 16) :
    Fallible.Ends (firstEnvelope p passphrase dataKey salt) n
      (fun candidate _ => Holds p passphrase dataKey .empty candidate) fun _ => True := by
  apply (encryptAesGcm_seals _ _ _ _).bind fun _ h => h
  intro wrapped m hwrapped
  apply (createEnvelope_sealed _ _ _ _).bind fun _ h => h
  intro candidate k hsealed
  simp only [Fallible.ends_bind, Fallible.ends_check, Fallible.ends_pure]
  exact ⟨fun _ hsize => hsealed.holds hsize hkey hsalt hwrapped .empty, fun _ => trivial⟩

theorem writeEntry_writes (h : VaultOk p v) (input : VaultSecretInput) {now : Option ℤ}
    (htime : isStoredTime (updatedAt now) = true) (replace : Bool) :
    Fallible.Ends (writeEntry p v input now replace) n
      (fun candidate _ => VaultPhaseOk p v (.writing (.written input.id input.value) candidate))
      fun _ => True := by
  simp only [writeEntry, Fallible.ends_bind, Fallible.ends_check]
  refine ⟨fun key hkey => ⟨fun _ hinput => ⟨fun current hcurrent => ⟨fun _ hexists =>
    ⟨fun _ hmissing => ⟨fun _ hlabel => ?_, fun _ => trivial⟩, fun _ => trivial⟩,
    fun _ => trivial⟩, fun _ => trivial⟩, fun _ => trivial⟩, fun _ => trivial⟩
  obtain ⟨e, passphrase, henvelope, hpassphrase, hholds, -, -⟩ := h.key hkey
  rw [demand_ok, henvelope, Option.some.injEq] at hcurrent
  subst hcurrent
  obtain ⟨_, hid, hsize⟩ := bind_ok.mp hinput
  rw [refuseIf_ok] at hexists hmissing hlabel hid hsize
  have hpresent := hholds.entries.present input.id
  apply (encryptAesGcm_seals _ _ _ _).mono _ fun _ h => h
  intro record m hrecord
  have hparses : entryParses p ⟨input.id, input.label.getD [], updatedAt now, record⟩ = true :=
    entryParses_seals (by simpa using hid) (by simpa using hlabel) htime hrecord
      (Nat.le_of_not_lt hsize)
  refine ⟨fun entries hplaced => ?_, fun _ => trivial⟩
  have hentries : EntriesHold p key (v.implied.set input.id input.value) entries := by
    simp only [placeEntry] at hplaced
    split_ifs at hplaced with hreplace hfull
    · cases hplaced
      have hfound : (e.findEntry input.id).isSome = true := by
        simpa [hreplace, Option.isSome_iff_ne_none] using hmissing
      exact hholds.entries.set hparses hrecord hfound
    · cases hplaced
      have hfresh : (e.findEntry input.id).isSome = false := by simpa [hreplace] using hexists
      rw [VaultEnvelope.findEntry, hpresent] at hfresh
      exact hholds.entries.concat hparses hrecord (by simpa using hfresh) (Nat.lt_of_not_le hfull)
  apply (createEnvelope_sealed _ _ _ _).mono _ fun _ h => h
  intro candidate k hsealed
  simp only [Fallible.ends_pure]
  refine ⟨fun _ hpersist => ?_, fun _ => trivial⟩
  have hcandidate := hsealed.holds hpersist hholds.keyLength hholds.salt hholds.wrapped hentries
  refine ⟨e, passphrase, key, henvelope, hpassphrase, hholds, hcandidate, ?_⟩
  rw [hsealed.fields]

theorem removeEntry_writes (h : VaultOk p v) (id : Str) :
    Fallible.Ends (removeEntry p v id) n (fun r _ => ∀ candidate, r = some candidate →
      VaultPhaseOk p v (.writing (.removed id) candidate)) fun _ => True := by
  simp only [removeEntry, Fallible.ends_bind, Fallible.ends_check]
  refine ⟨fun key hkey => ?_, fun _ => trivial⟩
  obtain ⟨e, passphrase, henvelope, hpassphrase, hholds, -, -⟩ := h.key hkey
  rw [henvelope]
  dsimp only
  split_ifs with hfound
  · simp only [Fallible.ends_bind, Fallible.ends_check]
    apply (createEnvelope_sealed _ _ _ _).mono _ fun _ h => h
    intro candidate k hsealed
    simp only [Fallible.ends_pure]
    refine ⟨fun _ hpersist found hsome => ?_, fun _ => trivial⟩
    cases hsome
    have hcandidate := hsealed.holds hpersist hholds.keyLength hholds.salt hholds.wrapped
      (hholds.entries.erase hfound)
    refine ⟨e, passphrase, key, henvelope, hpassphrase, hholds, hcandidate, ?_⟩
    rw [hsealed.fields]
  · intro candidate hnone
    cases hnone

theorem rotated_rotates (h : VaultOk p v) :
    Fallible.Ends (rotated p v) n (fun r _ => VaultPhaseOk p v (.rotating r.1 r.2)) fun _ => True := by
  simp only [rotated, Fallible.ends_bind, Fallible.ends_check]
  refine ⟨fun key hkey => ⟨fun protector hprotector => ⟨fun current hcurrent => ⟨fun _ hbound => ?_,
    fun _ => trivial⟩, fun _ => trivial⟩, fun _ => trivial⟩, fun _ => trivial⟩
  obtain ⟨e, passphrase, henvelope, hpassphrase, hholds, hsome, hsameKey⟩ := h.key hkey
  rw [demand_ok, henvelope, Option.some.injEq] at hcurrent
  subst hcurrent
  rw [demand_ok, hsameKey, Option.some.injEq] at hprotector
  subst hprotector
  apply (randomBytes_length 32).mono _ fun _ h => h
  intro nextKey m hlength
  apply (encryptAesGcm_seals _ _ _ _).mono _ fun _ h => h
  intro wrapped m hwrapped
  apply (reencrypt_holds _ _ hholds.entries.each).mono _ fun _ h => h
  intro entries m hentries
  apply (createEnvelope_sealed _ _ _ _).mono _ fun _ h => h
  intro candidate k hsealed
  simp only [Fallible.ends_pure]
  refine ⟨fun _ hpersist => ?_, fun _ => trivial⟩
  have hcandidate := hsealed.holds hpersist hlength hholds.salt hwrapped
    (hholds.entries.reencrypted hentries.1 hentries.2)
  refine ⟨e, passphrase, henvelope, hpassphrase, hcandidate, ?_, ?_⟩
  · rw [hsealed.fields]
  · rw [hsome]
    exact Option.some_ne_none key

theorem goOn_cases {α : Type} {x : Drawing α} {Q : α → Prop} (next : α → VaultPhase τ)
    (h : Fallible.Ends x v.drawn (fun a _ => Q a) fun _ => True) :
    ∃ n, (∃ a, Q a ∧ goOn v x next = ({ v with drawn := n }, next a)) ∨
      ∃ e, goOn v x next = ({ v with drawn := n }, .done (.rejected e)) := by
  unfold Fallible.Ends at h
  rcases hx : x v.drawn with ⟨e | a, n⟩
  · exact ⟨n, .inr ⟨e, by simp only [goOn, hx]⟩⟩
  · simp only [hx] at h
    exact ⟨n, .inl ⟨a, h, by simp only [goOn, hx]⟩⟩

theorem VaultOk.redrawn (h : VaultOk p v) (n : ℕ) : VaultOk p { v with drawn := n } where
  stored := h.stored
  empty := h.empty
  holds := h.holds

theorem VaultPhaseOk.redrawn {phase : VaultPhase τ} (h : VaultPhaseOk p v phase) (n : ℕ) :
    VaultPhaseOk p { v with drawn := n } phase := by
  cases phase with
  | derivingFirst passphrase dataKey salt => exact h
  | derivingKey passphrase salt => exact h
  | creating candidate passphrase key => exact h
  | writing change candidate => exact h
  | rotating candidate nextKey => exact h
  | done answer => trivial

theorem beginUnlock_phase (secret : Bytes) :
    Fallible.Ends (beginUnlock p v secret) n (fun phase _ => VaultPhaseOk p v phase) fun _ => True := by
  simp only [beginUnlock, Fallible.ends_bind, Fallible.ends_check]
  refine ⟨fun _ _ => ?_, fun _ => trivial⟩
  rcases henvelope : v.envelope with _ | e
  · apply (randomBytes_length 32).bind fun _ h => h
    intro dataKey m hkey
    apply (randomBytes_length 16).bind fun _ h => h
    intro salt k hsalt
    exact ⟨henvelope, hkey, hsalt⟩
  · exact ⟨e, henvelope, rfl⟩

theorem begin_phase (h : VaultOk p v) (operation : VaultOperation)
    (hclock : clockReads operation = true) :
    ∃ n, (begin p v operation).1 = { v with drawn := n } ∧ VaultPhaseOk p v (begin p v operation).2 := by
  have hgo : ∀ {α : Type} {x : Drawing α} {Q : α → Prop} {next : α → VaultPhase τ},
      Fallible.Ends x v.drawn (fun a _ => Q a) (fun _ => True) → (∀ a, Q a → VaultPhaseOk p v (next a)) →
      ∃ n, (goOn v x next).1 = { v with drawn := n } ∧ VaultPhaseOk p v (goOn v x next).2 := by
    intro α x Q next hends hnext
    obtain ⟨n, ⟨a, ha, hgo⟩ | ⟨e, hgo⟩⟩ := goOn_cases next hends
    · exact ⟨n, by rw [hgo], by rw [hgo]; exact hnext a ha⟩
    · exact ⟨n, by rw [hgo], by rw [hgo]; trivial⟩
  cases operation with
  | unlock secret => exact hgo (beginUnlock_phase secret) fun _ h => h
  | put input now => exact hgo (writeEntry_writes h input hclock false) fun _ h => h
  | replace input now => exact hgo (writeEntry_writes h input hclock true) fun _ h => h
  | remove id =>
    refine hgo (removeEntry_writes h id) fun r hr => ?_
    rcases r with _ | candidate
    · trivial
    · exact hr candidate rfl
  | rotate => exact hgo (rotated_rotates h) fun _ h => h
  | withSecret id =>
    have hanswer : Fallible.Ends (.check (withSecret p v id) : Drawing Bytes) v.drawn
        (fun _ _ => True) fun _ => True := Fallible.ends_check.mpr ⟨fun _ _ => trivial, fun _ => trivial⟩
    exact hgo hanswer fun _ _ => trivial

structure FinishOk (p : VaultPlatform τ) (v : HeadlessVault τ) (before : VaultPhase τ)
    (r : HeadlessVault τ × VaultPhase τ) : Prop where
  vault : VaultOk p r.1
  phase : VaultPhaseOk p r.1 r.2
  salts : ∀ e, v.envelope = some e →
    ∃ e', r.1.envelope = some e' ∧ e'.keyEnvelope.salt = e.keyEnvelope.salt
  /-- Only a call that publishes changes what the other ones rely on. -/
  still : isPublishing before = true ∨ r.1.envelope = v.envelope ∧ r.1.passphrase = v.passphrase ∧
    r.1.implied = v.implied ∧ (v.dataEncryptionKey ≠ none → r.1.dataEncryptionKey ≠ none)
  later : isPublishing r.2 = true → isPublishing before = true
  refused : ∀ e, r.2 = .done (.rejected e) → ∃ n, r.1 = { v with drawn := n }
  opens : v.dataEncryptionKey = none → r.1.dataEncryptionKey = none ∨ v.unlocks < r.1.unlocks
  counted : v.unlocks ≤ r.1.unlocks

theorem VaultOk.finish_redrawn (h : VaultOk p v) {before phase : VaultPhase τ}
    (hphase : VaultPhaseOk p v phase) (hlater : isPublishing phase = true → isPublishing before = true)
    (n : ℕ) : FinishOk p v before ({ v with drawn := n }, phase) where
  vault := h.redrawn n
  phase := hphase.redrawn n
  salts e he := ⟨e, he, rfl⟩
  still := .inr ⟨rfl, rfl, rfl, fun h => h⟩
  later := hlater
  refused _ _ := ⟨n, rfl⟩
  opens hnone := .inl hnone
  counted := Nat.le_refl _

theorem VaultOk.finish_rejected (h : VaultOk p v) (before : VaultPhase τ) (e : Str) (n : ℕ) :
    FinishOk p v before ({ v with drawn := n }, .done (.rejected e)) := by
  have hphase : VaultPhaseOk p v (.done (.rejected e)) := trivial
  exact h.finish_redrawn hphase (fun hfalse => by cases hfalse) n

theorem VaultOk.unlocked (h : VaultOk p v) {e : VaultEnvelope τ} (he : v.envelope = some e)
    {protectorKey key : Bytes} (hopen : openEnvelope p e protectorKey = .ok key) :
    VaultOk p (unlocked v key protectorKey) where
  stored := h.stored
  empty hnone := by cases he.symm.trans hnone
  holds found hfound := by
    obtain ⟨passphrase, K, hpassphrase, hholds, -⟩ := h.holds found hfound
    cases he.symm.trans hfound
    obtain ⟨rfl, rfl⟩ := hholds.opened hopen
    exact ⟨passphrase, key, hpassphrase, hholds, .inr ⟨rfl, rfl⟩⟩

theorem finish_ok (h : VaultOk p v) {before : VaultPhase τ} (hbefore : VaultPhaseOk p v before)
    (succeeded : Bool) : FinishOk p v before (finish p v succeeded before) := by
  have hreject : ∀ e, FinishOk p v before (v, .done (.rejected e)) :=
    fun e => h.finish_rejected before e v.drawn
  cases before with
  | derivingFirst passphrase dataKey salt =>
    simp only [finish]
    split_ifs
    · obtain ⟨henvelope, hkey, hsalt⟩ := hbefore
      obtain ⟨n, ⟨candidate, hcandidate, hgo⟩ | ⟨e, hgo⟩⟩ :=
        goOn_cases (v := v) (fun candidate => .creating candidate passphrase dataKey)
          (firstEnvelope_holds passphrase hkey hsalt)
      · rw [hgo]
        have hphase : VaultPhaseOk p v (.creating candidate passphrase dataKey) := ⟨henvelope, hcandidate⟩
        exact h.finish_redrawn hphase (fun _ => rfl) n
      · rw [hgo]
        exact h.finish_rejected _ e n
    · exact hreject _
  | derivingKey passphrase salt =>
    obtain ⟨e, henvelope, hsalt⟩ := hbefore
    simp only [finish, henvelope, Option.map_some]
    split_ifs
    · rcases hopen : openEnvelope p e (p.scrypt passphrase salt) with err | key
      · exact hreject _
      · exact {
          vault := h.unlocked henvelope hopen
          phase := trivial
          salts := fun found hfound => ⟨found, hfound, rfl⟩
          still := .inr ⟨rfl, rfl, rfl, fun _ => Option.some_ne_none key⟩
          later := fun hfalse => by cases hfalse
          refused := fun _ hfalse => by cases hfalse
          opens := fun _ => .inr (Nat.lt_succ_self _)
          counted := Nat.le_succ _ }
    · exact hreject _
  | creating candidate passphrase key =>
    obtain ⟨henvelope, hholds⟩ := hbefore
    simp only [finish]
    split_ifs
    · obtain ⟨himplied, -⟩ := h.empty henvelope
      have hvault : VaultOk p (Settings.unlocked
          { written v candidate with passphrase := some passphrase } key
          (p.scrypt passphrase candidate.keyEnvelope.salt)) := by
        refine ⟨rfl, fun hnone => (by cases hnone), fun e he => ?_⟩
        cases he
        exact ⟨passphrase, key, rfl, himplied ▸ hholds, .inr ⟨rfl, rfl⟩⟩
      exact {
        vault := hvault
        phase := trivial
        salts := fun e he => by cases henvelope.symm.trans he
        still := .inl rfl
        later := fun hfalse => by cases hfalse
        refused := fun _ hfalse => by cases hfalse
        opens := fun _ => .inr (Nat.lt_succ_self _)
        counted := Nat.le_succ _ }
    · exact hreject _
  | writing change candidate =>
    obtain ⟨e, passphrase, K, henvelope, hpassphrase, hholds, hcandidate, hsalt⟩ := hbefore
    simp only [finish]
    split_ifs
    · have hvault : VaultOk p
          { written v candidate with implied := applyChange v.implied change } := by
        refine ⟨rfl, fun hnone => (by cases hnone), fun found hfound => ?_⟩
        cases hfound
        obtain ⟨passphrase', K', hpassphrase', hholds', hkey⟩ := h.holds e henvelope
        cases hpassphrase.symm.trans hpassphrase'
        obtain ⟨-, rfl⟩ := hholds.opened hholds'.opens
        refine ⟨passphrase, K', hpassphrase, hcandidate, ?_⟩
        rw [hsalt]
        exact hkey
      exact {
        vault := hvault
        phase := by cases change <;> trivial
        salts := fun found hfound => by
          cases henvelope.symm.trans hfound
          exact ⟨candidate, rfl, hsalt⟩
        still := .inl rfl
        later := fun hfalse => by cases hfalse
        refused := fun _ hfalse => by cases change <;> cases hfalse
        opens := fun hnone => .inl hnone
        counted := Nat.le_refl _ }
    · exact hreject _
  | rotating candidate nextKey =>
    obtain ⟨e, passphrase, henvelope, hpassphrase, hcandidate, hsalt, hopen⟩ := hbefore
    simp only [finish]
    split_ifs
    · have hvault : VaultOk p { written v candidate with dataEncryptionKey := some nextKey } := by
        refine ⟨rfl, fun hnone => (by cases hnone), fun found hfound => ?_⟩
        cases hfound
        obtain ⟨passphrase', K', hpassphrase', hholds', hnone | ⟨-, hprotector⟩⟩ := h.holds e henvelope
        · exact absurd hnone hopen
        · cases hpassphrase.symm.trans hpassphrase'
          refine ⟨passphrase, nextKey, hpassphrase, hcandidate, .inr ⟨rfl, ?_⟩⟩
          rw [hsalt]
          exact hprotector
      exact {
        vault := hvault
        phase := trivial
        salts := fun found hfound => by
          cases henvelope.symm.trans hfound
          exact ⟨candidate, rfl, hsalt⟩
        still := .inl rfl
        later := fun hfalse => by cases hfalse
        refused := fun _ hfalse => by cases hfalse
        opens := fun hnone => absurd hnone hopen
        counted := Nat.le_refl _ }
    · exact hreject _
  | done answer => exact h.finish_redrawn hbefore (fun hfalse => by cases hfalse) v.drawn

end Invariant

section Steps
variable {s : VaultRun τ}

structure VaultConsistent (p : VaultPlatform τ) (s : VaultRun τ) : Prop where
  vault : VaultOk p s.vault
  phases : ∀ (n : ℕ) phase, s.calls[n]? = some phase → VaultPhaseOk p s.vault phase
  alone : ∀ (n m : ℕ) phase phase', s.calls[n]? = some phase → s.calls[m]? = some phase' →
    isPublishing phase = true → isPublishing phase' = true → n = m

theorem VaultPhaseOk.mono {v v' : HeadlessVault τ} {phase : VaultPhase τ} (h : VaultPhaseOk p v phase)
    (hsalts : ∀ e, v.envelope = some e →
      ∃ e', v'.envelope = some e' ∧ e'.keyEnvelope.salt = e.keyEnvelope.salt)
    (hstill : isPublishing phase = true → v'.envelope = v.envelope ∧ v'.passphrase = v.passphrase ∧
      v'.implied = v.implied)
    (hopen : isRotating phase = true → v.dataEncryptionKey ≠ none → v'.dataEncryptionKey ≠ none) :
    VaultPhaseOk p v' phase := by
  cases phase with
  | derivingFirst passphrase dataKey salt =>
    obtain ⟨henvelope, -⟩ := hstill rfl
    exact ⟨henvelope.trans h.1, h.2⟩
  | derivingKey passphrase salt =>
    obtain ⟨e, henvelope, hsalt⟩ := h
    obtain ⟨e', henvelope', hsame⟩ := hsalts e henvelope
    exact ⟨e', henvelope', hsame.trans hsalt⟩
  | creating candidate passphrase key =>
    obtain ⟨henvelope, -⟩ := hstill rfl
    exact ⟨henvelope.trans h.1, h.2⟩
  | writing change candidate =>
    obtain ⟨henvelope, hpassphrase, himplied⟩ := hstill rfl
    obtain ⟨e, passphrase, K, he, hfirst, hholds, hcandidate, hsalt⟩ := h
    exact ⟨e, passphrase, K, henvelope.trans he, hpassphrase.trans hfirst, himplied ▸ hholds,
      himplied ▸ hcandidate, hsalt⟩
  | rotating candidate nextKey =>
    obtain ⟨henvelope, hpassphrase, himplied⟩ := hstill rfl
    obtain ⟨e, passphrase, he, hfirst, hcandidate, hsalt, hsome⟩ := h
    exact ⟨e, passphrase, henvelope.trans he, hpassphrase.trans hfirst, himplied ▸ hcandidate,
      hsalt, hopen rfl hsome⟩
  | done answer => trivial

theorem VaultOk.lock {v : HeadlessVault τ} (h : VaultOk p v) : VaultOk p (lock v) where
  stored := h.stored
  empty hnone := ⟨(h.empty hnone).1, rfl⟩
  holds e he := by
    obtain ⟨passphrase, K, hpassphrase, hholds, -⟩ := h.holds e he
    exact ⟨passphrase, K, hpassphrase, hholds, .inl rfl⟩

theorem VaultConsistent.start (h : VaultConsistent p s) (operation : VaultOperation)
    (hapart : apart p s (.start operation) = true) :
    VaultConsistent p (vaultStep p s (.start operation)) := by
  simp only [apart, Bool.and_eq_true, Bool.or_eq_true, Bool.not_eq_true'] at hapart
  obtain ⟨n, hvault, hphase⟩ := begin_phase h.vault operation hapart.1
  simp only [vaultStep, hvault]
  have hnone : isPublishing (begin p s.vault operation).2 = true →
      ∀ (k : ℕ) phase, s.calls[k]? = some phase → isPublishing phase = false := by
    intro hpublishes k phase hk
    rcases hapart.2 with hquiet | hquiet
    · cases hquiet.symm.trans hpublishes
    · exact Bool.eq_false_iff.mpr (List.any_eq_false.mp hquiet phase (List.mem_of_getElem? hk))
  constructor
  case vault => exact h.vault.redrawn n
  case phases =>
    intro k phase hk
    rcases Lists.get_concat.mp hk with hk | ⟨-, rfl⟩
    · exact (h.phases k phase hk).redrawn n
    · exact hphase.redrawn n
  case alone =>
    intro k m phase phase' hk hm hpublishes hpublishes'
    rcases Lists.get_concat.mp hk with hk | ⟨hkn, rfl⟩
    · rcases Lists.get_concat.mp hm with hm | ⟨-, rfl⟩
      · exact h.alone k m phase phase' hk hm hpublishes hpublishes'
      · cases (hnone hpublishes' k phase hk).symm.trans hpublishes
    · rcases Lists.get_concat.mp hm with hm | ⟨hmn, -⟩
      · cases (hnone hpublishes m phase' hm).symm.trans hpublishes'
      · exact hkn.trans hmn.symm

theorem VaultConsistent.complete (h : VaultConsistent p s) (n : ℕ) (succeeded : Bool) :
    VaultConsistent p (vaultStep p s (.complete n succeeded)) := by
  simp only [vaultStep]
  rcases hcall : s.calls[n]? with _ | before
  · exact h
  have hfinish := finish_ok h.vault (h.phases n before hcall) succeeded
  constructor
  case vault => exact hfinish.vault
  case phases =>
    intro k phase hk
    rcases Lists.get_set.mp hk with ⟨-, -, rfl⟩ | ⟨hkn, hk⟩
    · exact hfinish.phase
    · refine (h.phases k phase hk).mono hfinish.salts (fun hpublishes => ?_)
        (fun hrotates hsome => ?_)
      · rcases hfinish.still with hbefore | ⟨henvelope, hpassphrase, himplied, -⟩
        · exact absurd (h.alone k n phase before hk hcall hpublishes hbefore) hkn
        · exact ⟨henvelope, hpassphrase, himplied⟩
      · rcases hfinish.still with hbefore | ⟨-, -, -, hkept⟩
        · have hpublishes : isPublishing phase = true := by
            cases phase with
            | rotating candidate nextKey => rfl
            | _ => cases hrotates
          exact absurd (h.alone k n phase before hk hcall hpublishes hbefore) hkn
        · exact hkept hsome
  case alone =>
    have hold : ∀ (k : ℕ) phase, (s.calls.set n (finish p s.vault succeeded before).2)[k]? = some phase →
        isPublishing phase = true → ∃ phase', s.calls[k]? = some phase' ∧
          isPublishing phase' = true := by
      intro k phase hk hpublishes
      rcases Lists.get_set.mp hk with ⟨hkn, -, rfl⟩ | ⟨-, hk⟩
      · exact ⟨before, hkn ▸ hcall, hfinish.later hpublishes⟩
      · exact ⟨phase, hk, hpublishes⟩
    intro k m phase phase' hk hm hpublishes hpublishes'
    obtain ⟨first, hfirst, hfirstPublishes⟩ := hold k phase hk hpublishes
    obtain ⟨second, hsecond, hsecondPublishes⟩ := hold m phase' hm hpublishes'
    exact h.alone k m first second hfirst hsecond hfirstPublishes hsecondPublishes

theorem VaultConsistent.lock (h : VaultConsistent p s) (hapart : apart p s .lock = true) :
    VaultConsistent p (vaultStep p s .lock) where
  vault := h.vault.lock
  phases n phase hn := by
    refine (h.phases n phase hn).mono (fun e he => ⟨e, he, rfl⟩) (fun _ => ⟨rfl, rfl, rfl⟩)
      (fun hrotates => ?_)
    simp only [apart, Bool.not_eq_true'] at hapart
    exact absurd hrotates (List.any_eq_false.mp hapart phase (List.mem_of_getElem? hn))
  alone := h.alone

theorem VaultConsistent.step (h : VaultConsistent p s) (input : VaultInput)
    (hapart : apart p s input = true) : VaultConsistent p (vaultStep p s input) := by
  cases input with
  | start operation => exact h.start operation hapart
  | complete n succeeded => exact h.complete n succeeded
  | lock => exact h.lock hapart

end Steps

section Changes
variable {s : VaultRun τ}

def SecretChange.id : SecretChange → Str
  | .written id _ => id
  | .removed id => id

/-- The input resolves a put, a replace or a remove of this secret. -/
def Resolves (s : VaultRun τ) (id : Str) : VaultInput → Prop
  | .complete n true => ∃ change candidate,
      s.calls[n]? = some (.writing change candidate) ∧ change.id = id
  | _ => False

structure SameContents (v v' : HeadlessVault τ) : Prop where
  envelope : v'.envelope = v.envelope
  stored : v'.stored = v.stored
  implied : v'.implied = v.implied
  key : v'.dataEncryptionKey = v.dataEncryptionKey

theorem SameContents.redrawn (v : HeadlessVault τ) (n : ℕ) : SameContents v { v with drawn := n } :=
  ⟨rfl, rfl, rfl, rfl⟩

theorem goOn_same {α : Type} (v : HeadlessVault τ) (x : Drawing α) (next : α → VaultPhase τ) :
    ∃ n, (goOn v x next).1 = { v with drawn := n } := by
  unfold goOn
  rcases x v.drawn with ⟨e | a, n⟩
  · exact ⟨n, rfl⟩
  · exact ⟨n, rfl⟩

theorem begin_same (p : VaultPlatform τ) (v : HeadlessVault τ) (operation : VaultOperation) :
    ∃ n, (begin p v operation).1 = { v with drawn := n } := by
  cases operation with
  | unlock secret => exact goOn_same _ _ _
  | put input now => exact goOn_same _ _ _
  | replace input now => exact goOn_same _ _ _
  | remove id => exact goOn_same _ _ _
  | rotate => exact goOn_same _ _ _
  | withSecret id => exact goOn_same _ _ _

theorem applyChange_other {implied : OrderedMap Str Bytes} {change : SecretChange} {id : Str}
    (h : change.id ≠ id) : (applyChange implied change).get id = implied.get id := by
  cases change with
  | written key value => exact OrderedMap.get_set_of_ne _ _ (Ne.symm h)
  | removed key =>
    rw [applyChange, OrderedMap.get_delete, if_neg]
    exact Ne.symm h

/-- The secret stays as it is until a call that changes it resolves. -/
theorem implied_step (p : VaultPlatform τ) {id : Str} {input : VaultInput}
    (h : ¬ Resolves s id input) :
    (vaultStep p s input).vault.implied.get id = s.vault.implied.get id := by
  cases input with
  | start operation =>
    obtain ⟨n, hbegin⟩ := begin_same p s.vault operation
    simp only [vaultStep, hbegin]
  | lock => rfl
  | complete n succeeded =>
    simp only [vaultStep]
    rcases hcall : s.calls[n]? with _ | phase
    · rfl
    cases phase with
    | derivingFirst passphrase dataKey salt =>
      simp only [finish]
      split_ifs
      · obtain ⟨k, hgo⟩ := goOn_same s.vault (firstEnvelope p passphrase dataKey salt)
          fun candidate => .creating candidate passphrase dataKey
        rw [hgo]
      · rfl
    | derivingKey passphrase salt =>
      simp only [finish]
      split_ifs
      · split
        · rfl
        · rfl
      · rfl
    | creating candidate passphrase key =>
      simp only [finish]
      split_ifs
      · rfl
      · rfl
    | writing change candidate =>
      simp only [finish]
      split_ifs with hok
      · subst hok
        exact applyChange_other fun hid => h ⟨change, candidate, hcall, hid⟩
      · rfl
    | rotating candidate nextKey =>
      simp only [finish]
      split_ifs
      · rfl
      · rfl
    | done answer => rfl

theorem implied_run (p : VaultPlatform τ) {id : Str} (later : List VaultInput)
    (h : ∀ past input rest, later = past ++ input :: rest →
      ¬ Resolves (Runs.after (vaultStep p) s past) id input) :
    (Runs.after (vaultStep p) s later).vault.implied.get id = s.vault.implied.get id := by
  induction later generalizing s with
  | nil => rfl
  | cons input later ih =>
    have hrest := ih (s := vaultStep p s input) fun past next rest hsplit =>
      h (input :: past) next rest (by rw [hsplit]; rfl)
    exact hrest.trans (implied_step p (h [] input later rfl))

end Changes

section Runs

structure StoredVault (p : VaultPlatform τ) where
  envelope : VaultEnvelope τ
  passphrase : Bytes
  key : Bytes
  implied : OrderedMap Str Bytes
  holds : Holds p passphrase key implied envelope

def openedVault (p : VaultPlatform τ) : Option (StoredVault p) → Bool → VaultRun τ
  | some found, false =>
    ⟨⟨some found.envelope, none, none, false, some found.envelope, 0, found.implied,
      some found.passphrase, 0⟩, []⟩
  | _, unavailable => ⟨⟨none, none, none, unavailable, none, 0, .empty, none, 0⟩, []⟩

variable (p) (found : Option (StoredVault p)) (unavailable : Bool)

abbrev afterVault (inputs : List VaultInput) : VaultRun τ :=
  Runs.after (vaultStep p) (openedVault p found unavailable) inputs

structure SecretsKept (inputs : List VaultInput) : Prop where
  /-- An unlocked vault answers with the implied secrets. -/
  readable : ∀ key, requireKey (afterVault p found unavailable inputs).vault = .ok key → ∀ id,
    withSecret p (afterVault p found unavailable inputs).vault id =
      demand ((afterVault p found unavailable inputs).vault.implied.get id) (js "missing secret")
  /-- A resolved write is implied until a call that changes its secret resolves. -/
  kept : ∀ past n later id value candidate, inputs = past ++ .complete n true :: later →
    (afterVault p found unavailable past).calls[n]? = some (.writing (.written id value) candidate) →
    (∀ between input rest, later = between ++ input :: rest →
      ¬ Resolves (afterVault p found unavailable (past ++ .complete n true :: between)) id input) →
    (afterVault p found unavailable inputs).vault.implied.get id = some value
  /-- What was last written parses, opens with the first passphrase and holds just them. -/
  written : ∀ e, (afterVault p found unavailable inputs).vault.stored = some e →
    parseEnvelope p e = true ∧ ∃ passphrase key,
      (afterVault p found unavailable inputs).vault.passphrase = some passphrase ∧
      openEnvelope p e (p.scrypt passphrase e.keyEnvelope.salt) = .ok key ∧
      ∀ id, (e.findEntry id).bind (fun entry => p.decipher key entry.record.nonce
          (.entry p.serverId id) entry.record.box) =
        (afterVault p found unavailable inputs).vault.implied.get id
  unwritten : (afterVault p found unavailable inputs).vault.stored = none →
    (afterVault p found unavailable inputs).vault.implied = .empty
  memory : (afterVault p found unavailable inputs).vault.envelope =
    (afterVault p found unavailable inputs).vault.stored
  begun : ∀ past operation later, inputs = past ++ .start operation :: later →
    SameContents (afterVault p found unavailable past).vault
      (afterVault p found unavailable (past ++ [.start operation])).vault
  refused : ∀ past input later, inputs = past ++ input :: later → ∀ (n : ℕ) e,
    (afterVault p found unavailable (past ++ [input])).calls[n]? = some (.done (.rejected e)) →
    (afterVault p found unavailable past).calls[n]? ≠ some (.done (.rejected e)) →
    SameContents (afterVault p found unavailable past).vault
      (afterVault p found unavailable (past ++ [input])).vault
  /-- After `lock` no secret can be read until an unlock resolves. -/
  locked : ∀ past later, inputs = past ++ .lock :: later →
    (afterVault p found unavailable inputs).vault.unlocks =
      (afterVault p found unavailable past).vault.unlocks →
    ∀ id, ∃ e, withSecret p (afterVault p found unavailable inputs).vault id = .error e

variable {p found unavailable}

theorem opened_consistent : VaultConsistent p (openedVault p found unavailable) := by
  have hempty : ∀ unavailable, VaultConsistent p
      ⟨⟨none, none, none, unavailable, none, 0, .empty, none, 0⟩, []⟩ := by
    intro unavailable
    refine ⟨⟨rfl, fun _ => ⟨rfl, rfl⟩, fun e he => (by cases he)⟩, fun n phase hn => (by cases hn),
      fun n m phase phase' hn => (by cases hn)⟩
  unfold openedVault
  split
  · next stored =>
    refine ⟨⟨rfl, fun hnone => (by cases hnone), fun e he => ?_⟩, fun n phase hn => (by cases hn),
      fun n m phase phase' hn => (by cases hn)⟩
    cases he
    exact ⟨stored.passphrase, stored.key, rfl, stored.holds, .inl rfl⟩
  · exact hempty _

theorem vault_consistent {inputs : List VaultInput}
    (h : Runs.Meets (vaultStep p) (fun s input => apart p s input = true)
      (openedVault p found unavailable) inputs) :
    VaultConsistent p (afterVault p found unavailable inputs) :=
  Runs.invariant_of_meets (fun _ input hs hapart => hs.step input hapart) opened_consistent h

theorem withSecret_locked {v : HeadlessVault τ} (h : v.dataEncryptionKey = none) (id : Str) :
    ∃ e, withSecret p v id = .error e := by
  rcases hanswer : withSecret p v id with e | value
  · exact ⟨e, rfl⟩
  · obtain ⟨key, hkey, -⟩ := bind_ok.mp hanswer
    obtain ⟨_, -, hdemand⟩ := bind_ok.mp hkey
    cases h.symm.trans (demand_ok.mp hdemand)

theorem VaultConsistent.stays_locked {s : VaultRun τ} (h : VaultConsistent p s) (input : VaultInput) :
    s.vault.unlocks ≤ (vaultStep p s input).vault.unlocks ∧
      (s.vault.dataEncryptionKey = none →
        (vaultStep p s input).vault.dataEncryptionKey = none ∨
          s.vault.unlocks < (vaultStep p s input).vault.unlocks) := by
  cases input with
  | start operation =>
    obtain ⟨n, hbegin⟩ := begin_same p s.vault operation
    simp only [vaultStep, hbegin]
    exact ⟨Nat.le_refl _, fun hnone => .inl hnone⟩
  | lock => exact ⟨Nat.le_refl _, fun _ => .inl rfl⟩
  | complete n succeeded =>
    simp only [vaultStep]
    rcases hcall : s.calls[n]? with _ | before
    · exact ⟨Nat.le_refl _, fun hnone => .inl hnone⟩
    · have hfinish := finish_ok h.vault (h.phases n before hcall) succeeded
      exact ⟨hfinish.counted, hfinish.opens⟩

theorem locked_run {s : VaultRun τ} (h : VaultConsistent p s) {later : List VaultInput}
    (hlater : Runs.Meets (vaultStep p) (fun s input => apart p s input = true) s later) :
    s.vault.unlocks ≤ (Runs.after (vaultStep p) s later).vault.unlocks ∧
      (s.vault.dataEncryptionKey = none →
        (Runs.after (vaultStep p) s later).vault.dataEncryptionKey = none ∨
          s.vault.unlocks < (Runs.after (vaultStep p) s later).vault.unlocks) := by
  induction later generalizing s with
  | nil => exact ⟨Nat.le_refl _, fun hnone => .inl hnone⟩
  | cons input later ih =>
    obtain ⟨hcount, hnow⟩ := h.stays_locked input
    obtain ⟨hcounts, hrest⟩ := ih (h.step input hlater.1) hlater.2
    refine ⟨Nat.le_trans hcount hcounts, fun hnone => ?_⟩
    rcases hnow hnone with hstill | hmore
    · rcases hrest hstill with hend | hmore
      · exact .inl hend
      · exact .inr (Nat.lt_of_le_of_lt hcount hmore)
    · exact .inr (Nat.lt_of_lt_of_le hmore hcounts)

theorem VaultConsistent.refused {s : VaultRun τ} (h : VaultConsistent p s) (input : VaultInput)
    {n : ℕ} {e : Str} (hnow : (vaultStep p s input).calls[n]? = some (.done (.rejected e)))
    (hbefore : s.calls[n]? ≠ some (.done (.rejected e))) :
    SameContents s.vault (vaultStep p s input).vault := by
  cases input with
  | start operation =>
    obtain ⟨k, hbegin⟩ := begin_same p s.vault operation
    simp only [vaultStep, hbegin]
    exact .redrawn s.vault k
  | lock => exact absurd hnow hbefore
  | complete m succeeded =>
    simp only [vaultStep] at hnow ⊢
    rcases hcall : s.calls[m]? with _ | before
    · exact ⟨rfl, rfl, rfl, rfl⟩
    · simp only [hcall] at hnow
      rcases Lists.get_set.mp hnow with ⟨-, -, hanswer⟩ | ⟨-, hsame⟩
      · obtain ⟨k, hvault⟩ :=
          (finish_ok h.vault (h.phases m before hcall) succeeded).refused e hanswer
        simp only [hvault]
        exact .redrawn s.vault k
      · exact absurd hsame hbefore

theorem vault_runs {inputs : List VaultInput}
    (h : Runs.Meets (vaultStep p) (fun s input => apart p s input = true)
      (openedVault p found unavailable) inputs) : SecretsKept p found unavailable inputs := by
  have hvault := (vault_consistent h).vault
  constructor
  case readable =>
    intro key hkey id
    obtain ⟨e, passphrase, henvelope, -, hholds, -, -⟩ := hvault.key hkey
    have hfind := hholds.entries.find id
    simp only [withSecret, hkey, henvelope, Option.bind_some, bind, Except.bind]
    rcases hentry : e.findEntry id with _ | entry
    · rw [VaultEnvelope.findEntry] at hentry
      rw [hentry, Option.bind_none] at hfind
      rw [← hfind]
      rfl
    · rw [VaultEnvelope.findEntry] at hentry
      rw [hentry, Option.bind_some] at hfind
      simp only [demand, decryptAesGcm, hfind]
      rcases hget : (afterVault p found unavailable inputs).vault.implied.get id with _ | value
      · have hpresent := hholds.entries.present id
        rw [hentry, hget] at hpresent
        cases hpresent
      · rfl
  case kept =>
    intro past n later id value candidate hsplit hcall huntouched
    subst hsplit
    have hnow : (vaultStep p (afterVault p found unavailable past) (.complete n true)).vault.implied.get
        id = some value := by
      simp only [vaultStep, hcall]
      exact OrderedMap.get_set_self _ _ _
    have hrest : (Runs.after (vaultStep p)
        (vaultStep p (afterVault p found unavailable past) (.complete n true)) later).vault.implied.get
        id = (vaultStep p (afterVault p found unavailable past) (.complete n true)).vault.implied.get
        id := by
      apply implied_run
      intro between input rest hbetween
      have hnot := huntouched between input rest hbetween
      rw [afterVault, Runs.after_append] at hnot
      exact hnot
    rw [afterVault, Runs.after_append]
    exact hrest.trans hnow
  case written =>
    intro e he
    rw [hvault.stored] at he
    obtain ⟨passphrase, K, hpassphrase, hholds, -⟩ := hvault.holds e he
    exact ⟨hholds.parses, passphrase, K, hpassphrase, hholds.opens, hholds.entries.find⟩
  case unwritten => exact fun hnone => (hvault.empty (hvault.stored.symm.trans hnone)).1
  case memory => exact hvault.stored.symm
  case begun =>
    intro past operation later _
    obtain ⟨k, hbegin⟩ := begin_same p (afterVault p found unavailable past).vault operation
    rw [afterVault, afterVault, Runs.after_append]
    have hstep : (vaultStep p (afterVault p found unavailable past) (.start operation)).vault =
        { (afterVault p found unavailable past).vault with drawn := k } := hbegin
    exact hstep ▸ .redrawn _ k
  case refused =>
    intro past input later hsplit n e hnow hbefore
    subst hsplit
    obtain ⟨hpast, -⟩ := Runs.meets_append.mp h
    have hafter : afterVault p found unavailable (past ++ [input]) =
        vaultStep p (afterVault p found unavailable past) input := Runs.after_append _ _ _ _
    rw [hafter] at hnow ⊢
    exact (vault_consistent hpast).refused input hnow hbefore
  case locked =>
    intro past later hsplit hcount id
    subst hsplit
    obtain ⟨hpast, hlock, hlater⟩ := Runs.meets_append.mp h
    apply withSecret_locked
    obtain ⟨-, hrest⟩ := locked_run ((vault_consistent hpast).step .lock hlock) hlater
    rw [afterVault, Runs.after_append] at hcount ⊢
    rcases hrest rfl with hnone | hmore
    · exact hnone
    · exact absurd hcount (Nat.ne_of_gt hmore)

def plainPlatform : VaultPlatform (Bytes × Bytes) where
  serverId := js "server"
  scrypt passphrase salt := (passphrase ++ salt ++ List.replicate 32 0).take 32
  hkdf key _ := key
  encipher key _ _ text := (key, text)
  decipher key _ _ box := if box.1 = key then some box.2 else none
  ciphertextLength box := box.2.length
  random n size := List.replicate size (UInt8.ofNat n)
  byteLength e := 1024 + 512 * e.entries.length
  decipher_encipher _ _ _ _ := if_pos rfl
  decipher_other _ _ _ _ _ h := if_neg h
  encipher_length _ _ _ _ := rfl
  random_length _ _ := List.length_replicate

def firstPassphrase : Bytes := textEncode (js "correct horse")

def secretInput (id value : String) : VaultSecretInput :=
  ⟨js id, textEncode (js value), some (js "label")⟩

theorem vault_runs_rotated : SecretsKept plainPlatform none false
    [.start (.unlock firstPassphrase), .complete 0 true, .complete 0 true,
      .start (.put (secretInput "a" "one") (some 1)), .complete 1 true, .start .rotate,
      .start (.withSecret (js "a")), .complete 2 true, .lock,
      .start (.unlock firstPassphrase), .complete 4 true,
      .start (.replace (secretInput "a" "two") (some 2)), .complete 5 false,
      .start (.remove (js "a")), .complete 6 true] :=
  vault_runs (by decide +kernel)

/-- Two puts in flight build on one envelope: the second write loses the first secret. -/
theorem secrets_not_kept : ¬ SecretsKept plainPlatform none false
    [.start (.unlock firstPassphrase), .complete 0 true, .complete 0 true,
      .start (.put (secretInput "a" "one") (some 1)),
      .start (.put (secretInput "b" "two") (some 1)), .complete 1 true, .complete 2 true] := by
  intro h
  have hread := h.readable (List.replicate 32 0) (by decide +kernel) (js "a")
  revert hread
  decide +kernel

end Runs

end Terminay.Settings
