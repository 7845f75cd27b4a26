import Terminay.Terminal.PresentationLease

/-!
# Runs of the presentation lease authority

An unexpired lease ends only by its own holder, a takeover, an administrator or a
release, and the revisions published for a session increase as long as a session
that was forgotten is not leased again: its count starts over.
-/

namespace Terminay.Terminal
open Script Outcome

namespace LeaseAuthority

theorem current_none {a : LeaseAuthority} {key : Str} (h : a.leases[key]? = none) (now : ℤ) :
    a.current key now = (none, a) := by
  rw [current, h]

theorem current_live {a : LeaseAuthority} {key : Str} {lease : MutableLease}
    (h : a.leases[key]? = some lease) {now : ℤ} (hnow : now < lease.leaseExpiresAt) :
    a.current key now = (some lease, a) := by
  rw [current, h]
  exact if_neg (not_le.mpr hnow)

theorem current_expired {a : LeaseAuthority} {key : Str} {lease : MutableLease}
    (h : a.leases[key]? = some lease) {now : ℤ} (hnow : lease.leaseExpiresAt ≤ now) :
    a.current key now = (none, a.commit key lease.identity.toTerminalIdentity none .release) := by
  rw [current, h]
  exact if_pos hnow

theorem current_some {a : LeaseAuthority} {key : Str} {now : ℤ} {lease : MutableLease}
    (h : (a.current key now).1 = some lease) :
    a.leases[key]? = some lease ∧ now < lease.leaseExpiresAt ∧ (a.current key now).2 = a := by
  rcases hkey : a.leases[key]? with _ | held
  · rw [current_none hkey] at h
    cases h
  · rcases le_or_gt held.leaseExpiresAt now with hexpired | hlive
    · rw [current_expired hkey hexpired] at h
      cases h
    · rw [current_live hkey hlive] at h ⊢
      cases h
      exact ⟨rfl, hlive, rfl⟩

theorem commit_other (a : LeaseAuthority) {key other : Str} (hne : key ≠ other)
    (identity : TerminalIdentity) (lease : Option MutableLease) (action : LeaseMode) :
    (a.commit key identity lease action).leases[other]? = a.leases[other]? := by
  cases lease with
  | none => exact Table.get_erase_of_ne _ hne
  | some lease => exact Table.get_insert_of_ne _ _ hne

theorem current_keeps {a : LeaseAuthority} {key : Str} {lease : MutableLease}
    (h : a.leases[key]? = some lease) {now : ℤ} (hnow : now < lease.leaseExpiresAt) (other : Str) :
    (a.current other now).2.leases[key]? = some lease := by
  by_cases hkey : other = key
  · rw [hkey, current_live h hnow]
    exact h
  · rcases hother : a.leases[other]? with _ | held
    · rw [current_none hother]
      exact h
    · rcases le_or_gt held.leaseExpiresAt now with hexpired | hlive
      · rw [current_expired hother hexpired, commit_other a hkey]
        exact h
      · rw [current_live hother hlive]
        exact h

end LeaseAuthority

/-- The calls that may end or replace an unexpired lease of the session `key`. -/
def Ends (lease : MutableLease) (key : Str) : LeaseOp → Prop
  | .change mode identity _ admin => sessionKey identity.toTerminalIdentity = key ∧
      (mode = .takeover ∨ mode = .revoke ∧ admin = true ∨
        mode ≠ .revoke ∧ sameHolder lease.identity identity = true)
  | .releaseAttachment identity =>
    sessionKey identity.toTerminalIdentity = key ∧ sameHolder lease.identity identity = true
  | .releaseClient identity clientId => sessionKey identity = key ∧ lease.identity.clientId = clientId
  | .releaseSession identity => sessionKey identity = key
  | _ => False

namespace LeaseAuthority

theorem state_keeps {a : LeaseAuthority} {key : Str} {lease : MutableLease}
    (h : a.leases[key]? = some lease) {now : ℤ} (hnow : now < lease.leaseExpiresAt)
    (identity : TerminalIdentity) : (a.state identity now).2.leases[key]? = some lease :=
  current_keeps h hnow _

theorem grant_keeps (options : LeaseOptions) {a : LeaseAuthority} {key : Str} {lease : MutableLease}
    (h : a.leases[key]? = some lease) {mode : LeaseMode} {identity : LeaseIdentity}
    (hother : sessionKey identity.toTerminalIdentity ≠ key ∨
      mode ≠ .takeover ∧ sameHolder lease.identity identity = false) (leaseMs : Option ℚ)
    {current : Option MutableLease}
    (hcurrent : sessionKey identity.toTerminalIdentity = key → current = some lease) (later : ℤ) :
    (a.grant options mode identity leaseMs current later).2.leases[key]? = some lease := by
  rw [grant]
  cases hcontested : contested mode current identity with
  | some error => exact h
  | none =>
    cases boundedPositive (leaseMs.getD options.leaseMs) options.maxLeaseMs
        "terminal presentation lease is out of bounds" with
    | error error => exact h
    | ok ms =>
      by_cases hkey : sessionKey identity.toTerminalIdentity = key
      · have hrival := hother.resolve_left (not_not.mpr hkey)
        rw [hcurrent hkey, contested] at hcontested
        simp [hrival] at hcontested
      · exact (commit_other a hkey _ _ _).trans h

theorem ended (options : LeaseOptions) {a : LeaseAuthority} {key : Str} {lease : MutableLease}
    (h : a.leases[key]? = some lease) {call : LeaseCall} (hnow : call.now < lease.leaseExpiresAt)
    (hlater : call.later < lease.leaseExpiresAt)
    (hends : (a.step options call).leases[key]? ≠ some lease) : Ends lease key call.op := by
  by_contra hnot
  apply hends
  have hkeep := current_keeps h hnow
  obtain ⟨op, now, later⟩ := call
  cases op with
  | state identity => exact state_keeps h hnow identity
  | change mode identity leaseMs admin =>
    have hown : sessionKey identity.toTerminalIdentity = key →
        (a.current (sessionKey identity.toTerminalIdentity) now).1 = some lease := by
      rintro rfl
      rw [current_live h hnow]
    have hstay := hkeep (sessionKey identity.toTerminalIdentity)
    simp only [Ends, not_and_or, not_or] at hnot
    cases mode with
    | release =>
      simp only [step, change]
      rcases hcur : (a.current (sessionKey identity.toTerminalIdentity) now).1 with _ | held
      · exact state_keeps hstay hlater _
      · dsimp only
        split_ifs with hsame
        · refine (commit_other _ ?_ _ _ _).trans hstay
          intro hkey
          rw [hown hkey, Option.some.injEq] at hcur
          subst hcur
          exact hnot.elim (fun hne => hne hkey) fun hne => by simp [hsame] at hne
        · exact hstay
    | revoke =>
      simp only [step, change]
      split_ifs with hadmin
      · exact hstay
      · rcases hcur : (a.current (sessionKey identity.toTerminalIdentity) now).1 with _ | held
        · exact state_keeps hstay hlater _
        · refine (commit_other _ ?_ _ _ _).trans hstay
          intro hkey
          exact hnot.elim (fun hne => hne hkey) fun hne => by simp [hadmin] at hne
    | acquire =>
      refine grant_keeps options hstay (hnot.imp id fun hne => ⟨by decide, ?_⟩) leaseMs hown later
      simpa using hne.2.2
    | renew =>
      refine grant_keeps options hstay (hnot.imp id fun hne => ⟨by decide, ?_⟩) leaseMs hown later
      simpa using hne.2.2
    | takeover =>
      refine grant_keeps options hstay (.inl ?_) leaseMs hown later
      exact hnot.elim id fun hne => absurd rfl hne.1
  | assertHolder identity =>
    have hstay := hkeep (sessionKey identity.toTerminalIdentity)
    simp only [step, assertHolder]
    rcases (a.current (sessionKey identity.toTerminalIdentity) now).1 with _ | held
    · exact hstay
    · dsimp only
      split_ifs
      · exact state_keeps hstay hlater _
      · exact hstay
  | releaseAttachment identity =>
    have hstay := hkeep (sessionKey identity.toTerminalIdentity)
    simp only [step, releaseAttachment]
    rcases hcur : (a.current (sessionKey identity.toTerminalIdentity) now).1 with _ | held
    · exact hstay
    · dsimp only
      split_ifs with hsame
      · refine (commit_other _ ?_ _ _ _).trans hstay
        intro hkey
        rw [hkey, current_live h hnow] at hcur
        cases hcur
        exact hnot ⟨hkey, hsame⟩
      · exact hstay
  | releaseClient identity clientId =>
    have hstay := hkeep (sessionKey identity)
    simp only [step, releaseClient]
    rcases hcur : (a.current (sessionKey identity) now).1 with _ | held
    · exact hstay
    · dsimp only
      split_ifs with hsame
      · refine (commit_other _ ?_ _ _ _).trans hstay
        intro hkey
        rw [hkey, current_live h hnow] at hcur
        cases hcur
        exact hnot ⟨hkey, hsame⟩
      · exact hstay
  | releaseSession identity => exact (Table.get_erase_of_ne _ hnot).trans h

theorem assertHolder_holds {a : LeaseAuthority} {identity : LeaseIdentity} {now later : ℤ}
    (h : isOk (a.assertHolder identity now later).1 = true) : ∃ expires,
      a.leases[sessionKey identity.toTerminalIdentity]? = some ⟨identity, expires⟩ ∧ now < expires := by
  rw [assertHolder] at h
  rcases hcur : (a.current (sessionKey identity.toTerminalIdentity) now).1 with _ | ⟨holder, expires⟩
  · simp [hcur, isOk] at h
  · simp only [hcur] at h
    split_ifs at h with hsame
    · obtain ⟨hheld, hlive, -⟩ := current_some hcur
      have hholder : holder = identity := of_decide_eq_true hsame
      rw [hholder] at hheld
      exact ⟨expires, hheld, hlive⟩
    · simp [isOk] at h

end LeaseAuthority

structure LeaseHistory where
  authority : LeaseAuthority
  forgotten : List Str

def LeaseMode.grants : LeaseMode → Bool
  | .acquire | .renew | .takeover => true
  | .release | .revoke => false

namespace LeaseHistory

def initial : LeaseHistory := ⟨.initial, []⟩

def step (options : LeaseOptions) (h : LeaseHistory) (call : LeaseCall) : LeaseHistory where
  authority := h.authority.step options call
  forgotten := match call.op with
    | .releaseSession identity =>
      if (h.authority.revisions[sessionKey identity]?).isSome then sessionKey identity :: h.forgotten
      else h.forgotten
    | _ => h.forgotten

def Releases (options : LeaseOptions) (h : LeaseHistory) (call : LeaseCall) : Prop :=
  match call.op with
  | .change mode identity leaseMs _ => mode.grants = true ∧
      sessionKey identity.toTerminalIdentity ∈ h.forgotten ∧
      isOk (boundedPositive (leaseMs.getD options.leaseMs) options.maxLeaseMs
        "terminal presentation lease is out of bounds") = true
  | _ => False

instance (options : LeaseOptions) (h : LeaseHistory) (call : LeaseCall) :
    Decidable (Releases options h call) := by
  unfold Releases
  cases call.op <;> infer_instance

end LeaseHistory

structure Counted (forgotten : List Str) (a : LeaseAuthority) : Prop where
  held : ∀ (key : Str) lease, a.leases[key]? = some lease →
    sessionKey lease.identity.toTerminalIdentity = key ∧ key ∉ forgotten
  bounded : ∀ p ∈ a.published, sessionKey p.1.identity ∉ forgotten →
    p.1.revision ≤ a.revision (sessionKey p.1.identity)
  positive : ∀ p ∈ a.published, 1 ≤ p.1.revision
  increasing : a.published.Pairwise fun p q =>
    sessionKey p.1.identity = sessionKey q.1.identity → p.1.revision < q.1.revision

namespace Counted

variable {forgotten : List Str} {a : LeaseAuthority}

theorem initial : Counted [] LeaseAuthority.initial where
  held key lease h := by simp [LeaseAuthority.initial] at h
  bounded := nofun
  positive := nofun
  increasing := List.Pairwise.nil

theorem commit (h : Counted forgotten a) {key : Str} (hkey : key ∉ forgotten)
    {identity : TerminalIdentity} (hidentity : sessionKey identity = key)
    {lease : Option MutableLease}
    (hlease : ∀ l ∈ lease, sessionKey l.identity.toTerminalIdentity = key) (action : LeaseMode) :
    Counted forgotten (a.commit key identity lease action) := by
  have hrevision : ∀ k : Str, (a.commit key identity lease action).revision k =
      if key = k then a.revision key + 1 else a.revision k := by
    intro k
    simp only [LeaseAuthority.revision, LeaseAuthority.commit, Table.get_insert]
    split_ifs <;> rfl
  constructor
  case held =>
    intro k held hk
    by_cases heq : key = k
    · subst heq
      cases lease with
      | none => simp [LeaseAuthority.commit] at hk
      | some l =>
        simp only [LeaseAuthority.commit, Table.get_insert, if_true, Option.some.injEq] at hk
        subst hk
        exact ⟨hlease l rfl, hkey⟩
    · rw [LeaseAuthority.commit_other a heq] at hk
      exact h.held k held hk
  case bounded =>
    intro p hp hforgotten
    rw [hrevision]
    rcases List.mem_append.mp hp with hp | hp
    · have hold := h.bounded p hp hforgotten
      split_ifs with heq
      · rw [← heq] at hold
        omega
      · exact hold
    · rw [List.mem_singleton.mp hp]
      exact le_of_eq (if_pos hidentity.symm).symm
  case positive =>
    intro p hp
    rcases List.mem_append.mp hp with hp | hp
    · exact h.positive p hp
    · rw [List.mem_singleton.mp hp]
      exact Nat.le_add_left 1 _
  case increasing =>
    refine List.pairwise_append.mpr ⟨h.increasing, List.pairwise_singleton _ _, ?_⟩
    intro p hp q hq hsame
    rw [List.mem_singleton.mp hq] at hsame ⊢
    have hsame' : sessionKey p.1.identity = key := hsame.trans hidentity
    have hold := h.bounded p hp (hsame' ▸ hkey)
    rw [hsame'] at hold
    exact Nat.lt_succ_of_le hold

theorem current (h : Counted forgotten a) (key : Str) (now : ℤ) :
    Counted forgotten (a.current key now).2 := by
  rcases hkey : a.leases[key]? with _ | held
  · rw [LeaseAuthority.current_none hkey]
    exact h
  · rcases le_or_gt held.leaseExpiresAt now with hexpired | hlive
    · rw [LeaseAuthority.current_expired hkey hexpired]
      obtain ⟨hidentity, hfresh⟩ := h.held key held hkey
      have hnone : ∀ l ∈ (none : Option MutableLease), sessionKey l.identity.toTerminalIdentity = key :=
        fun l hl => by cases hl
      exact h.commit hfresh hidentity hnone .release
    · rw [LeaseAuthority.current_live hkey hlive]
      exact h

theorem remove (h : Counted forgotten a) {identity : TerminalIdentity} {now : ℤ}
    {lease : MutableLease} (hcur : (a.current (sessionKey identity) now).1 = some lease)
    (action : LeaseMode) : Counted forgotten
      ((a.current (sessionKey identity) now).2.commit (sessionKey identity) identity none action) := by
  obtain ⟨hheld, -, hsame⟩ := LeaseAuthority.current_some hcur
  rw [hsame]
  exact h.commit (h.held _ _ hheld).2 rfl (fun l hl => by cases hl) action

theorem grant (h : Counted forgotten a) (options : LeaseOptions) (mode : LeaseMode)
    (identity : LeaseIdentity) (leaseMs : Option ℚ)
    (hfresh : isOk (boundedPositive (leaseMs.getD options.leaseMs) options.maxLeaseMs
      "terminal presentation lease is out of bounds") = true →
      sessionKey identity.toTerminalIdentity ∉ forgotten)
    (current : Option MutableLease) (later : ℤ) :
    Counted forgotten (a.grant options mode identity leaseMs current later).2 := by
  rw [LeaseAuthority.grant]
  cases LeaseAuthority.contested mode current identity with
  | some error => exact h
  | none =>
    cases hms : boundedPositive (leaseMs.getD options.leaseMs) options.maxLeaseMs
        "terminal presentation lease is out of bounds" with
    | error error => exact h
    | ok ms =>
      have hlease : ∀ l ∈ some (⟨identity, later + ms⟩ : MutableLease),
          sessionKey l.identity.toTerminalIdentity = sessionKey identity.toTerminalIdentity := by
        intro l hl
        cases hl
        rfl
      exact h.commit (hfresh (by rw [hms]; rfl)) rfl hlease mode

theorem releaseSession (h : Counted forgotten a) (identity : TerminalIdentity) :
    Counted (if (a.revisions[sessionKey identity]?).isSome then sessionKey identity :: forgotten
      else forgotten) (a.releaseSession identity) := by
  have hleases : ∀ (key : Str) lease, (a.releaseSession identity).leases[key]? = some lease →
      sessionKey identity ≠ key ∧ a.leases[key]? = some lease := by
    intro key lease hkey
    rw [LeaseAuthority.releaseSession, Table.get_erase] at hkey
    split_ifs at hkey with hne
    exact ⟨hne, hkey⟩
  have hrevision : ∀ key : Str, sessionKey identity ≠ key →
      (a.releaseSession identity).revision key = a.revision key := by
    intro key hne
    rw [LeaseAuthority.revision, LeaseAuthority.releaseSession, Table.get_erase_of_ne _ hne]
    rfl
  split_ifs with hcounted
  · refine ⟨fun key lease hkey => ?_, fun p hp hfresh => ?_, h.positive, h.increasing⟩
    · obtain ⟨hne, hold⟩ := hleases key lease hkey
      obtain ⟨hidentity, hkept⟩ := h.held key lease hold
      refine ⟨hidentity, ?_⟩
      intro hmem
      rcases List.mem_cons.mp hmem with heq | hmem
      · exact hne heq.symm
      · exact hkept hmem
    · rw [List.mem_cons, not_or] at hfresh
      rw [hrevision _ (Ne.symm hfresh.1)]
      exact h.bounded p hp hfresh.2
  · refine ⟨fun key lease hkey => ?_, fun p hp hfresh => ?_, h.positive, h.increasing⟩
    · obtain ⟨-, hold⟩ := hleases key lease hkey
      exact h.held key lease hold
    · have hold := h.bounded p hp hfresh
      by_cases heq : sessionKey identity = sessionKey p.1.identity
      · -- A session without a count has published nothing.
        have hzero : a.revision (sessionKey p.1.identity) = 0 := by
          rw [LeaseAuthority.revision, ← heq, Option.not_isSome_iff_eq_none.mp hcounted]
          rfl
        have hpositive := h.positive p hp
        omega
      · rw [hrevision _ heq]
        exact hold

theorem change {h : LeaseHistory} (hc : Counted h.forgotten h.authority) (options : LeaseOptions)
    {mode : LeaseMode} {identity : LeaseIdentity} {leaseMs : Option ℚ} {admin : Bool} {now later : ℤ}
    (hcall : ¬ h.Releases options ⟨.change mode identity leaseMs admin, now, later⟩) :
    Counted h.forgotten
      (h.authority.change options mode identity leaseMs admin now later).2 := by
  have hcurrent := hc.current (sessionKey identity.toTerminalIdentity) now
  have hfresh : mode.grants = true → isOk (boundedPositive (leaseMs.getD options.leaseMs)
      options.maxLeaseMs "terminal presentation lease is out of bounds") = true →
      sessionKey identity.toTerminalIdentity ∉ h.forgotten :=
    fun hgrants hms hmem => hcall ⟨hgrants, hmem, hms⟩
  simp only [LeaseAuthority.change]
  cases mode with
  | release =>
    rcases hcur : (h.authority.current (sessionKey identity.toTerminalIdentity) now).1 with _ | lease
    · exact hcurrent.current _ _
    · dsimp only
      split_ifs
      · exact hc.remove hcur .release
      · exact hcurrent
  | revoke =>
    dsimp only
    split_ifs
    · exact hcurrent
    · rcases hcur : (h.authority.current (sessionKey identity.toTerminalIdentity) now).1 with _ | lease
      · exact hcurrent.current _ _
      · exact hc.remove hcur .revoke
  | acquire => exact hcurrent.grant options _ identity leaseMs (hfresh rfl) _ later
  | renew => exact hcurrent.grant options _ identity leaseMs (hfresh rfl) _ later
  | takeover => exact hcurrent.grant options _ identity leaseMs (hfresh rfl) _ later

theorem step {h : LeaseHistory} (hc : Counted h.forgotten h.authority) (options : LeaseOptions)
    {call : LeaseCall} (hcall : ¬ h.Releases options call) :
    Counted (h.step options call).forgotten (h.step options call).authority := by
  obtain ⟨op, now, later⟩ := call
  cases op with
  | state identity => exact hc.current _ now
  | change mode identity leaseMs admin => exact hc.change options hcall
  | assertHolder identity =>
    have hcurrent := hc.current (sessionKey identity.toTerminalIdentity) now
    simp only [LeaseHistory.step, LeaseAuthority.step, LeaseAuthority.assertHolder]
    rcases (h.authority.current (sessionKey identity.toTerminalIdentity) now).1 with _ | lease
    · exact hcurrent
    · dsimp only
      split_ifs
      · exact hcurrent.current _ _
      · exact hcurrent
  | releaseAttachment identity =>
    have hcurrent := hc.current (sessionKey identity.toTerminalIdentity) now
    simp only [LeaseHistory.step, LeaseAuthority.step, LeaseAuthority.releaseAttachment]
    rcases hcur : (h.authority.current (sessionKey identity.toTerminalIdentity) now).1 with _ | lease
    · exact hcurrent
    · dsimp only
      split_ifs
      · exact hc.remove hcur .release
      · exact hcurrent
  | releaseClient identity clientId =>
    have hcurrent := hc.current (sessionKey identity) now
    simp only [LeaseHistory.step, LeaseAuthority.step, LeaseAuthority.releaseClient]
    rcases hcur : (h.authority.current (sessionKey identity) now).1 with _ | lease
    · exact hcurrent
    · dsimp only
      split_ifs
      · exact hc.remove hcur .release
      · exact hcurrent
  | releaseSession identity => exact hc.releaseSession identity

end Counted

/-- The revisions `onChanged` was told for one session, in order. -/
def publishedRevisions (a : LeaseAuthority) (identity : TerminalIdentity) : List ℕ :=
  (a.published.filter fun p => p.1.identity = identity).map fun p => p.1.revision

theorem published_increasing {forgotten : List Str} {a : LeaseAuthority} (h : Counted forgotten a)
    (identity : TerminalIdentity) : (publishedRevisions a identity).Pairwise (· < ·) := by
  rw [publishedRevisions, List.pairwise_map]
  apply (h.increasing.filter _).imp_of_mem
  intro p q hp hq hpq
  have hp' : p.1.identity = identity := of_decide_eq_true (List.mem_filter.mp hp).2
  have hq' : q.1.identity = identity := of_decide_eq_true (List.mem_filter.mp hq).2
  exact hpq (by rw [hp', hq'])

theorem lease_runs (options : LeaseOptions) (calls : List LeaseCall) :
    let h := Runs.after (LeaseHistory.step options) .initial calls
    (∀ (x y : LeaseIdentity) (now later : ℤ), x.toTerminalIdentity = y.toTerminalIdentity →
      isOk (h.authority.assertHolder x now later).1 = true →
      isOk (h.authority.assertHolder y now later).1 = true → x = y) ∧
    (∀ (key : Str) (lease : MutableLease) (call : LeaseCall),
      h.authority.leases[key]? = some lease → call.now < lease.leaseExpiresAt →
      call.later < lease.leaseExpiresAt →
      (h.step options call).authority.leases[key]? ≠ some lease → Ends lease key call.op) ∧
    (Runs.Meets (LeaseHistory.step options) (fun h call => ¬ h.Releases options call) .initial calls →
      ∀ identity, (publishedRevisions h.authority identity).Pairwise (· < ·)) := by
  refine ⟨?_, ?_, ?_⟩
  · intro x y now later hsession hx hy
    obtain ⟨ex, hx, -⟩ := LeaseAuthority.assertHolder_holds hx
    obtain ⟨ey, hy, -⟩ := LeaseAuthority.assertHolder_holds hy
    rw [hsession, hy, Option.some.injEq, MutableLease.mk.injEq] at hx
    exact hx.1.symm
  · intro key lease call hheld hnow hlater hends
    exact LeaseAuthority.ended options hheld hnow hlater hends
  · intro hruns identity
    have hcounted : Counted
        (Runs.after (LeaseHistory.step options) .initial calls).forgotten
        (Runs.after (LeaseHistory.step options) .initial calls).authority :=
      Runs.invariant_of_meets (I := fun h : LeaseHistory => Counted h.forgotten h.authority)
        (fun h call hc hcall => hc.step options hcall) Counted.initial hruns
    exact published_increasing hcounted identity

def leaseOptions : LeaseOptions := ⟨15000, 60000⟩
def shell : TerminalIdentity := ⟨js "srv", js "p", js "s1"⟩
def attachment (client : String) : LeaseIdentity := ⟨shell, js client, js "a"⟩
def leaseAt (mode : LeaseMode) (client : String) (time : ℤ) : LeaseCall :=
  ⟨.change mode (attachment client) none false, time, time⟩

def takenOver : List LeaseCall := [leaseAt .acquire "x" 0, leaseAt .takeover "y" 10]

theorem takeover_runs :
    (attachment "y" = attachment "y") ∧
    Ends ⟨attachment "x", 15000⟩ (sessionKey shell) (leaseAt .takeover "y" 10).op ∧
    (publishedRevisions (Runs.after (LeaseHistory.step leaseOptions) .initial takenOver).authority
      shell).Pairwise (· < ·) :=
  ⟨(lease_runs leaseOptions takenOver).1 (attachment "y") (attachment "y") 20 20 rfl
      (by decide +kernel) (by decide +kernel),
    (lease_runs leaseOptions [leaseAt .acquire "x" 0]).2.1 (sessionKey shell)
      ⟨attachment "x", 15000⟩ (leaseAt .takeover "y" 10) (by decide +kernel) (by decide) (by decide)
      (by decide +kernel),
    (lease_runs leaseOptions takenOver).2.2 (by decide +kernel) shell⟩

def movedBack : List LeaseCall :=
  [leaseAt .acquire "x" 0, ⟨.releaseSession shell, 10, 10⟩, leaseAt .acquire "x" 20]

theorem moved_back_repeats :
    ¬ (publishedRevisions (Runs.after (LeaseHistory.step leaseOptions) .initial movedBack).authority
      shell).Pairwise (· < ·) := by
  decide +kernel

end Terminay.Terminal
