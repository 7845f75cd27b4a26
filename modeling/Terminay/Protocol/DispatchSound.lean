import Terminay.Lib.Lists
import Terminay.Protocol.Dispatcher

/-!
# What holds of every dispatcher

An entry without a result stays in its ledger and is executed by one call, its owner.
-/

namespace Terminay.Protocol.Dispatch
open Script Workspace Lists

variable {ν τ : Type} [Engine ν] {o : Options ν τ} {s : State ν}

section Invariant

/-- The error that stopped a call is its own: its signal, or the end of its deadline. -/
def OwnStop (r : CommandRequest ν) (stopped : Option (OperationError ν)) : Prop :=
  ∀ error ∈ stopped, ∃ reason : Interruption, reason.reaches r = true ∧ error = reason.error

def Executes (n : ℕ) (c : Call ν) (x : CommandEntry ν) : Prop :=
  x.owner = n ∧ c.request = x.request ∧
    ((∃ stopped, c.progress = .running stopped ∧ OwnStop c.request stopped ∧ x.result = none) ∨
      ∃ outcome, c.progress = .answered (c.request.result outcome) true ∧
        x.result = some (c.request.result outcome))

def Names (r : CommandRequest ν) (o : Options ν τ) (x : CommandEntry ν) : Prop :=
  r.connectionId = x.request.connectionId ∧ r.commandId = x.request.commandId ∧
    r.contents.fingerprint o.sha256 = .ok x.fingerprint

def Waits (c : Call ν) (x : CommandEntry ν) : Prop :=
  (∃ stopped, c.progress = .running stopped ∧ OwnStop c.request stopped) ∨
    (∃ result, x.result = some result ∧
      c.progress = .answered { result with correlationId := c.request.correlationId } false) ∨
    ∃ reason : Interruption, reason.reaches c.request = true ∧
      c.progress = .answered (c.request.result (.failed reason.error)) false

def Refused (c : Call ν) : Prop :=
  (∃ message, c.progress = .thrown message) ∨
    ∃ error, c.progress = .answered (c.request.result (.failed error)) false

def CallSound (o : Options ν τ) (entries : List (CommandEntry ν)) (n : ℕ) (c : Call ν) : Prop :=
  match c.role with
  | .refused => Refused c
  | .executes e => ∃ x, entries[e]? = some x ∧ Executes n c x
  | .waits e => ∃ x, entries[e]? = some x ∧ Names c.request o x ∧ Waits c x

def unresolved (entries : List (CommandEntry ν)) (d : ProtocolId × ℕ) : Bool :=
  !resolved entries d.2

structure LedgerSound (entries : List (CommandEntry ν)) (l : ℕ) (ledger : Ledger) : Prop where
  ids : (Entries.keys ledger.entries).Nodup
  listed : ∀ d ∈ ledger.entries, ∃ x, entries[d.2]? = some x ∧ x.ledger = l ∧
    x.request.commandId = d.1
  pending : ledger.pending = ledger.entries.countP (unresolved entries)
  bounded : ledger.pending ≤ maxPendingCommands

structure EntrySound (o : Options ν τ) (ledgers : List Ledger) (calls : List (Call ν)) (e : ℕ)
    (x : CommandEntry ν) : Prop where
  home : ∃ ledger, ledgers[x.ledger]? = some ledger ∧
    ledger.connectionId = x.request.connectionId ∧
    (x.result = none → (x.request.commandId, e) ∈ ledger.entries)
  fingerprint : x.request.contents.fingerprint o.sha256 = .ok x.fingerprint
  owned : ∃ c, calls[x.owner]? = some c ∧ c.role = .executes e

structure Sound (o : Options ν τ) (s : State ν) : Prop where
  found : (Entries.keys s.found).Nodup
  homes : ∀ c l, Entries.get s.found c = some l →
    ∃ ledger, s.ledgers[l]? = some ledger ∧ ledger.connectionId = c
  ledgers : ∀ l ledger, s.ledgers[l]? = some ledger → LedgerSound s.entries l ledger
  entries : ∀ e x, s.entries[e]? = some x → EntrySound o s.ledgers s.calls e x
  calls : ∀ n c, s.calls[n]? = some c → CallSound o s.entries n c
  runsOnce : s.runs.Nodup
  runs : ∀ e ∈ s.runs, e < s.entries.length

theorem initial_sound : Sound o (initial : State ν) where
  found := List.nodup_nil
  homes c l h := by cases h
  ledgers l ledger h := by cases h
  entries e x h := by cases h
  calls n c h := by cases h
  runsOnce := List.nodup_nil
  runs e h := by cases h

theorem stopped_own (r : CommandRequest ν) (now : ℤ) : OwnStop r (r.stopped now) := by
  intro error herror
  rw [CommandRequest.stopped] at herror
  split_ifs at herror with haborted hlate
  · cases herror
    exact ⟨.cancelled, rfl, rfl⟩
  · cases herror
    refine ⟨.deadline, ?_, rfl⟩
    rcases hdeadline : r.deadline with _ | d
    · rw [CommandRequest.remaining, hdeadline] at hlate
      cases hlate
    · rw [Interruption.reaches, hdeadline]
      rfl
  · cases herror

omit [Engine ν] in
theorem dispatched_own (service : τ → Option (OperationError ν)) (reason : Interruption)
    (fallback : String) :
    dispatchError service (.protocol reason.error) fallback = reason.error := by
  cases reason with
  | cancelled => rfl
  | deadline => rfl

end Invariant

theorem CallSound.running {n : ℕ} {c : Call ν} {entries : List (CommandEntry ν)}
    (h : CallSound o entries n c) {stopped : Option (OperationError ν)}
    (hc : c.progress = .running stopped) : OwnStop c.request stopped := by
  rw [CallSound] at h
  rcases hrole : c.role with _ | e | e
  · rw [hrole] at h
    rcases h with ⟨message, h⟩ | ⟨error, h⟩
    · rw [hc] at h
      cases h
    · rw [hc] at h
      cases h
  · rw [hrole] at h
    obtain ⟨x, -, -, ⟨own, hown, hstop⟩ | ⟨result, -, h⟩ | ⟨reason, -, h⟩⟩ := h
    · rw [hc] at hown
      cases hown
      exact hstop
    · rw [hc] at h
      cases h
    · rw [hc] at h
      cases h
  · rw [hrole] at h
    obtain ⟨x, -, -, -, ⟨own, hown, hstop, -⟩ | ⟨outcome, h, -⟩⟩ := h
    · rw [hc] at hown
      cases hown
      exact hstop
    · rw [hc] at h
      cases h

theorem Sound.call (h : Sound o s) {r : CommandRequest ν} {role : Role} {progress : Progress ν}
    (hc : CallSound o s.entries s.calls.length ⟨r, role, progress⟩) :
    Sound o (s.call r role progress) := by
  refine ⟨h.found, h.homes, h.ledgers, fun e x hx => ?_, fun n c hn => ?_, h.runsOnce, h.runs⟩
  · have he := h.entries e x hx
    obtain ⟨c, hown, hrole⟩ := he.owned
    exact ⟨he.home, he.fingerprint, c, get_concat.mpr (.inl hown), hrole⟩
  · rcases get_concat.mp hn with hold | ⟨rfl, rfl⟩
    · exact h.calls n c hold
    · exact hc

theorem Sound.refused (h : Sound o s) (r : CommandRequest ν) (error : OperationError ν) :
    Sound o (s.refused r error) := h.call (.inr ⟨error, rfl⟩)

theorem Sound.answer (h : Sound o s) {n : ℕ} {c : Call ν} (hn : s.calls[n]? = some c)
    {envelope : CommandResult ν} {executed : Bool}
    (hc : CallSound o s.entries n { c with progress := .answered envelope executed }) :
    Sound o (s.answer n c envelope executed) := by
  refine ⟨h.found, h.homes, h.ledgers, fun e x hx => ?_, fun m d hm => ?_, h.runsOnce, h.runs⟩
  · have he := h.entries e x hx
    obtain ⟨d, hown, hrole⟩ := he.owned
    refine ⟨he.home, he.fingerprint, ?_⟩
    by_cases heq : x.owner = n
    · rw [heq, hn, Option.some.injEq] at hown
      rw [← hown] at hrole
      have hlt : n < s.calls.length := (List.getElem?_eq_some_iff.mp hn).1
      exact ⟨_, get_set.mpr (.inl ⟨heq, hlt, rfl⟩), hrole⟩
    · exact ⟨d, get_set.mpr (.inr ⟨heq, hown⟩), hrole⟩
  · rcases get_set.mp hm with ⟨rfl, -, rfl⟩ | ⟨-, hold⟩
    · exact hc
    · exact h.calls m d hold

theorem ledger_of {l : ℕ} {ledger : Ledger} (h : s.ledgers[l]? = some ledger) :
    s.ledger l = ledger := by
  rw [State.ledger, h]
  rfl

structure Opened (s s' : State ν) (connectionId : ProtocolId) (l : ℕ) : Prop where
  here : Entries.get s'.found connectionId = some l
  entries : s'.entries = s.entries
  calls : s'.calls = s.calls
  runs : s'.runs = s.runs

theorem made_sound (h : Sound o s) {found : List (ProtocolId × ℕ)}
    (hkeys : (Entries.keys found).Nodup) {connectionId : ProtocolId}
    (hnew : Entries.get found connectionId = none)
    (hold : ∀ c l, Entries.get found c = some l → Entries.get s.found c = some l) :
    Sound o { s with
      found := Entries.set found connectionId s.ledgers.length
      ledgers := s.ledgers ++ [⟨connectionId, [], 0⟩] } := by
  refine ⟨Entries.keys_set_nodup hkeys _ _, fun c l hl => ?_, fun l ledger hl => ?_,
    fun e x hx => ?_, h.calls, h.runsOnce, h.runs⟩
  · by_cases he : c = connectionId
    · rw [he, Entries.get_set_self hkeys, Option.some.injEq] at hl
      exact ⟨_, get_concat.mpr (.inr ⟨hl.symm, rfl⟩), he.symm⟩
    · rw [Entries.get_set_other hkeys he] at hl
      obtain ⟨ledger, hledger, hc⟩ := h.homes c l (hold c l hl)
      exact ⟨ledger, get_concat.mpr (.inl hledger), hc⟩
  · rcases get_concat.mp hl with hledger | ⟨rfl, rfl⟩
    · exact h.ledgers l ledger hledger
    · exact ⟨List.nodup_nil, fun d hd => (List.not_mem_nil hd).elim, rfl, Nat.zero_le _⟩
  · have he := h.entries e x hx
    obtain ⟨ledger, hledger, hhome⟩ := he.home
    exact ⟨⟨ledger, get_concat.mpr (.inl hledger), hhome⟩, he.fingerprint, he.owned⟩

theorem openLedger_sound (h : Sound o s) {connectionId : ProtocolId} {s' : State ν} {l : ℕ}
    (hopen : s.openLedger connectionId = some (s', l)) :
    Sound o s' ∧ Opened s s' connectionId l := by
  rw [State.openLedger] at hopen
  rcases hget : Entries.get s.found connectionId with _ | l'
  · rw [hget] at hopen
    dsimp only at hopen
    split_ifs at hopen
    · rw [Option.map_eq_some_iff] at hopen
      obtain ⟨d, -, heq⟩ := hopen
      cases heq
      have hkeys := Entries.keys_delete_nodup h.found d.1
      have hold : ∀ c l, Entries.get (Entries.delete s.found d.1) c = some l →
          Entries.get s.found c = some l := by
        intro c l hl
        exact Entries.get_of_mem h.found (Entries.mem_delete.mp (Entries.mem_of_get hl)).1
      have hnew : Entries.get (Entries.delete s.found d.1) connectionId = none := by
        rcases hd : Entries.get (Entries.delete s.found d.1) connectionId with _ | l'
        · rfl
        · rw [hold _ _ hd] at hget
          cases hget
      exact ⟨made_sound h hkeys hnew hold, Entries.get_set_self hkeys _ _, rfl, rfl, rfl⟩
    · cases hopen
      exact ⟨made_sound h h.found hget fun _ _ hl => hl, Entries.get_set_self h.found _ _, rfl, rfl,
        rfl⟩
  · rw [hget] at hopen
    cases hopen
    exact ⟨h, hget, rfl, rfl, rfl⟩

structure Roomy (entries : List (CommandEntry ν)) (held kept : List (ProtocolId × ℕ)) : Prop where
  ids : (Entries.keys kept).Nodup
  sub : ∀ d ∈ kept, d ∈ held
  pending : ∀ d ∈ held, unresolved entries d = true → d ∈ kept
  count : kept.countP (unresolved entries) = held.countP (unresolved entries)

theorem room_roomy {held kept : List (ProtocolId × ℕ)} (hids : (Entries.keys held).Nodup)
    (h : s.room held = some kept) : Roomy s.entries held kept := by
  rw [State.room] at h
  split_ifs at h
  · rw [Option.map_eq_some_iff] at h
    obtain ⟨d, hd, rfl⟩ := h
    have hresolved := List.find?_some hd
    have hmem := List.mem_of_find?_eq_some hd
    have hother : ∀ a ∈ held, unresolved s.entries a = true → a.1 ≠ d.1 := by
      intro a ha hpending heq
      have hsame : a = d := List.inj_on_of_nodup_map hids ha hmem heq
      rw [unresolved, hsame, hresolved] at hpending
      cases hpending
    refine ⟨Entries.keys_delete_nodup hids _, fun a ha => (Entries.mem_delete.mp ha).1,
      fun a ha hpending => Entries.mem_delete.mpr ⟨ha, hother a ha hpending⟩, ?_⟩
    rw [Entries.delete, List.countP_filter]
    refine List.countP_congr fun a ha => ?_
    rw [Bool.and_eq_true, decide_eq_true_eq]
    exact ⟨fun hboth => hboth.1, fun hpending => ⟨hpending, hother a ha hpending⟩⟩
  · cases h
    exact ⟨hids, fun d hd => hd, fun d hd _ => hd, rfl⟩

section Entering

variable {entries : List (CommandEntry ν)}

theorem resolved_grow {x : CommandEntry ν} {e : ℕ} (he : e < entries.length) :
    resolved (entries ++ [x]) e = resolved entries e := by
  rw [resolved, resolved, List.getElem?_append_left he]

theorem LedgerSound.grow {l : ℕ} {ledger : Ledger} (h : LedgerSound entries l ledger)
    (x : CommandEntry ν) : LedgerSound (entries ++ [x]) l ledger where
  ids := h.ids
  listed d hd := by
    obtain ⟨y, hy, hat⟩ := h.listed d hd
    exact ⟨y, get_concat.mpr (.inl hy), hat⟩
  pending := by
    rw [h.pending]
    refine List.countP_congr fun d hd => ?_
    obtain ⟨y, hy, -⟩ := h.listed d hd
    rw [unresolved, unresolved, resolved_grow (List.getElem?_eq_some_iff.mp hy).1]
  bounded := h.bounded

theorem CallSound.grow {n : ℕ} {c : Call ν} (h : CallSound o entries n c) (x : CommandEntry ν) :
    CallSound o (entries ++ [x]) n c := by
  rw [CallSound] at h ⊢
  rcases hrole : c.role with _ | e | e
  · rw [hrole] at h
    exact h
  · rw [hrole] at h
    obtain ⟨y, hy, hat⟩ := h
    exact ⟨y, get_concat.mpr (.inl hy), hat⟩
  · rw [hrole] at h
    obtain ⟨y, hy, hat⟩ := h
    exact ⟨y, get_concat.mpr (.inl hy), hat⟩

theorem LedgerSound.enter {l : ℕ} {ledger : Ledger} (h : LedgerSound entries l ledger)
    {kept : List (ProtocolId × ℕ)} (hroom : Roomy entries ledger.entries kept)
    {x : CommandEntry ν} (hledger : x.ledger = l) (hresult : x.result = none)
    (hnew : Entries.get ledger.entries x.request.commandId = none)
    (hfew : ledger.pending < maxPendingCommands) :
    LedgerSound (entries ++ [x]) l { ledger with
      entries := Entries.set kept x.request.commandId entries.length
      pending := ledger.pending + 1 } := by
  have hfree : Entries.get kept x.request.commandId = none := by
    refine Entries.get_none.mpr fun hmem => Entries.get_none.mp hnew ?_
    obtain ⟨d, hd, hkey⟩ := List.mem_map.mp hmem
    exact List.mem_map.mpr ⟨d, hroom.sub d hd, hkey⟩
  have hlast : (entries ++ [x])[entries.length]? = some x := get_concat.mpr (.inr ⟨rfl, rfl⟩)
  refine ⟨Entries.keys_set_nodup hroom.ids _ _, fun d hd => ?_, ?_, hfew⟩
  · rcases Entries.mem_set.mp hd with rfl | ⟨hd, -⟩
    · exact ⟨x, hlast, hledger, rfl⟩
    · exact (h.grow x).listed d (hroom.sub d hd)
  · have hold : kept.countP (unresolved (entries ++ [x])) = kept.countP (unresolved entries) := by
      refine List.countP_congr fun d hd => ?_
      obtain ⟨y, hy, -⟩ := h.listed d (hroom.sub d hd)
      rw [unresolved, unresolved, resolved_grow (List.getElem?_eq_some_iff.mp hy).1]
    have hone : unresolved (entries ++ [x]) (x.request.commandId, entries.length) = true := by
      rw [unresolved, resolved, hlast, Option.any_some, hresult]
      rfl
    rw [Entries.set_absent hfree, List.countP_append, hold, hroom.count, ← h.pending,
      List.countP_cons_of_pos hone]
    rfl

theorem enter_sound (h : Sound o s) {r : CommandRequest ν} (now : ℤ) {fingerprint : Str} {l : ℕ}
    {ledger : Ledger} {kept : List (ProtocolId × ℕ)} (hl : s.ledgers[l]? = some ledger)
    (hconnection : ledger.connectionId = r.connectionId)
    (hfingerprint : r.contents.fingerprint o.sha256 = .ok fingerprint)
    (hnew : Entries.get ledger.entries r.commandId = none)
    (hfew : ledger.pending < maxPendingCommands) (hroom : Roomy s.entries ledger.entries kept) :
    Sound o (s.enter r now fingerprint l kept) := by
  have hlt : l < s.ledgers.length := (List.getElem?_eq_some_iff.mp hl).1
  have hledger := ledger_of hl
  refine ⟨h.found, fun c m hm => ?_, fun m found hm => ?_, fun e x hx => ?_, fun n c hn => ?_,
    h.runsOnce, fun e he => ?_⟩
  · obtain ⟨found, hfound, hc⟩ := h.homes c m hm
    by_cases heq : m = l
    · rw [heq, hl, Option.some.injEq] at hfound
      rw [← hfound] at hc
      exact ⟨_, get_set.mpr (.inl ⟨heq, hlt, rfl⟩), by rw [hledger]; exact hc⟩
    · exact ⟨found, get_set.mpr (.inr ⟨heq, hfound⟩), hc⟩
  · rcases get_set.mp hm with ⟨rfl, -, rfl⟩ | ⟨-, hold⟩
    · rw [hledger]
      exact (h.ledgers m ledger hl).enter (x := ⟨fingerprint, none, m, r, s.calls.length⟩) hroom rfl
        rfl hnew hfew
    · exact (h.ledgers m found hold).grow _
  · rcases get_concat.mp hx with hold | ⟨rfl, rfl⟩
    · have he := h.entries e x hold
      obtain ⟨found, hfound, hc, hlisted⟩ := he.home
      obtain ⟨c, hown, hrole⟩ := he.owned
      refine ⟨?_, he.fingerprint, c, get_concat.mpr (.inl hown), hrole⟩
      by_cases heq : x.ledger = l
      · rw [heq, hl, Option.some.injEq] at hfound
        rw [← hfound] at hc hlisted
        refine ⟨_, get_set.mpr (.inl ⟨heq, hlt, rfl⟩), by rw [hledger]; exact hc, fun hnone => ?_⟩
        have hpending : unresolved s.entries (x.request.commandId, e) = true := by
          rw [unresolved, resolved, hold, Option.any_some, hnone]
          rfl
        refine Entries.mem_set.mpr (.inr ⟨hroom.pending _ (hlisted hnone) hpending, fun hid => ?_⟩)
        exact Entries.get_none.mp hnew (hid ▸ Entries.mem_keys (hlisted hnone))
      · exact ⟨found, get_set.mpr (.inr ⟨heq, hfound⟩), hc, hlisted⟩
    · refine ⟨⟨_, get_set.mpr (.inl ⟨rfl, hlt, rfl⟩), by rw [hledger]; exact hconnection,
        fun _ => Entries.mem_set.mpr (.inl rfl)⟩, hfingerprint, _,
        get_concat.mpr (.inr ⟨rfl, rfl⟩), rfl⟩
  · rcases get_concat.mp hn with hold | ⟨rfl, rfl⟩
    · exact (h.calls n c hold).grow _
    · exact ⟨_, get_concat.mpr (.inr ⟨rfl, rfl⟩), rfl, rfl,
        .inl ⟨_, rfl, stopped_own r now, rfl⟩⟩
  · have hlength : (s.enter r now fingerprint l kept).entries.length = s.entries.length + 1 := by
      simp [State.enter]
    rw [hlength]
    exact Nat.lt_succ_of_lt (h.runs e he)

end Entering

section Finishing

variable {entries : List (CommandEntry ν)} {e : ℕ} {x : CommandEntry ν} {result : CommandResult ν}

theorem checked_own (r : CommandRequest ν) (outcome : CommandOutcome ν) :
    ∃ recorded, checkedResult (r.result outcome) = r.result recorded := by
  rw [checkedResult]
  split
  · exact ⟨outcome, rfl⟩
  · exact ⟨invalidResult, rfl⟩

theorem resolved_other {a : ℕ} (h : a ≠ e) :
    resolved (entries.set e x) a = resolved entries a := by
  rw [resolved, resolved, List.getElem?_set_ne h.symm]

theorem listed_resolve {l : ℕ} {ledger : Ledger} (h : LedgerSound entries l ledger)
    (hx : entries[e]? = some x) : ∀ d ∈ ledger.entries,
      ∃ y, (entries.set e { x with result := some result })[d.2]? = some y ∧ y.ledger = l ∧
        y.request.commandId = d.1 := by
  intro d hd
  obtain ⟨y, hy, hat⟩ := h.listed d hd
  by_cases heq : d.2 = e
  · rw [heq, hx, Option.some.injEq] at hy
    rw [← hy] at hat
    exact ⟨_, get_set.mpr (.inl ⟨heq, (List.getElem?_eq_some_iff.mp hx).1, rfl⟩), hat⟩
  · exact ⟨y, get_set.mpr (.inr ⟨heq, hy⟩), hat⟩

theorem LedgerSound.resolve {ledger : Ledger} (h : LedgerSound entries x.ledger ledger)
    (hx : entries[e]? = some x) (hpending : x.result = none)
    (hlisted : (x.request.commandId, e) ∈ ledger.entries) :
    LedgerSound (entries.set e { x with result := some result }) x.ledger
      { ledger with pending := ledger.pending - 1 } := by
  have hlt := (List.getElem?_eq_some_iff.mp hx).1
  have hbefore : unresolved entries (x.request.commandId, e) = true := by
    rw [unresolved, resolved, hx, Option.any_some, hpending]
    rfl
  have hafter : unresolved (entries.set e { x with result := some result })
      (x.request.commandId, e) = false := by
    rw [unresolved, resolved, get_set.mpr (.inl ⟨rfl, hlt, rfl⟩)]
    rfl
  have hcount := countP_drop_one (List.Nodup.of_map _ h.ids) hlisted hbefore hafter
    fun d hd hne => by
      obtain ⟨y, hy, -, hid⟩ := h.listed d hd
      have hother : d.2 ≠ e := by
        intro heq
        rw [heq, hx, Option.some.injEq] at hy
        rw [← hy] at hid
        exact hne (Prod.ext hid.symm heq)
      rw [unresolved, unresolved, resolved_other hother]
  refine ⟨h.ids, fun d hd => listed_resolve h hx d hd, ?_, (Nat.sub_le _ _).trans h.bounded⟩
  have htotal := h.pending
  dsimp only
  omega

theorem LedgerSound.elsewhere {l : ℕ} {ledger : Ledger} (h : LedgerSound entries l ledger)
    (hx : entries[e]? = some x) (hl : l ≠ x.ledger) :
    LedgerSound (entries.set e { x with result := some result }) l ledger := by
  refine ⟨h.ids, listed_resolve h hx, ?_, h.bounded⟩
  rw [h.pending]
  refine List.countP_congr fun d hd => ?_
  obtain ⟨y, hy, hat, -⟩ := h.listed d hd
  have hother : d.2 ≠ e := by
    intro heq
    rw [heq, hx, Option.some.injEq] at hy
    rw [← hy] at hat
    exact hl hat.symm
  rw [unresolved, unresolved, resolved_other hother]

theorem CallSound.resolve {n m : ℕ} {c : Call ν} (h : CallSound o entries m c) (hm : m ≠ n)
    (hx : entries[e]? = some x) (howner : x.owner = n) (hpending : x.result = none) :
    CallSound o (entries.set e { x with result := some result }) m c := by
  have hlt := (List.getElem?_eq_some_iff.mp hx).1
  rw [CallSound] at h ⊢
  rcases hrole : c.role with _ | a | a
  · rw [hrole] at h
    exact h
  · rw [hrole] at h
    obtain ⟨y, hy, hnames, hwaits⟩ := h
    by_cases heq : a = e
    · rw [heq, hx, Option.some.injEq] at hy
      rw [← hy] at hnames hwaits
      refine ⟨_, get_set.mpr (.inl ⟨heq, hlt, rfl⟩), hnames, ?_⟩
      rcases hwaits with hrunning | ⟨relayed, hresult, -⟩ | hstopped
      · exact .inl hrunning
      · rw [hpending] at hresult
        cases hresult
      · exact .inr (.inr hstopped)
    · exact ⟨y, get_set.mpr (.inr ⟨heq, hy⟩), hnames, hwaits⟩
  · rw [hrole] at h
    obtain ⟨y, hy, hexecutes⟩ := h
    have heq : a ≠ e := by
      intro heq
      rw [heq, hx, Option.some.injEq] at hy
      rw [← hy] at hexecutes
      exact hm (hexecutes.1.symm.trans howner)
    exact ⟨y, get_set.mpr (.inr ⟨heq, hy⟩), hexecutes⟩

theorem finish_sound (h : Sound o s) {n : ℕ} {c : Call ν} (hn : s.calls[n]? = some c)
    (hrole : c.role = .executes e) {stopped : Option (OperationError ν)}
    (hrun : c.progress = .running stopped) (outcome : CommandOutcome ν) :
    Sound o (s.finish n c e outcome) := by
  have hcall := h.calls n c hn
  rw [CallSound, hrole] at hcall
  obtain ⟨x, hx, howner, hrequest, hprogress⟩ := hcall
  have hpending : x.result = none := by
    rcases hprogress with ⟨_, -, -, hnone⟩ | ⟨_, hanswered, -⟩
    · exact hnone
    · rw [hrun] at hanswered
      cases hanswered
  obtain ⟨ledger, hledger, hconnection, hlisted⟩ := (h.entries e x hx).home
  obtain ⟨recorded, hrecorded⟩ := checked_own c.request outcome
  have hlt := (List.getElem?_eq_some_iff.mp hx).1
  have hltl := (List.getElem?_eq_some_iff.mp hledger).1
  have hltn := (List.getElem?_eq_some_iff.mp hn).1
  rw [State.finish, hx]
  dsimp only
  rw [hrecorded, ledger_of hledger]
  refine ⟨h.found, fun d m hm => ?_, fun m found hm => ?_, fun a y hy => ?_, fun m d hm => ?_,
    h.runsOnce, fun a ha => ?_⟩
  · obtain ⟨found, hfound, hd⟩ := h.homes d m hm
    by_cases heq : m = x.ledger
    · rw [heq, hledger, Option.some.injEq] at hfound
      rw [← hfound] at hd
      exact ⟨_, get_set.mpr (.inl ⟨heq, hltl, rfl⟩), hd⟩
    · exact ⟨found, get_set.mpr (.inr ⟨heq, hfound⟩), hd⟩
  · rcases get_set.mp hm with ⟨rfl, -, rfl⟩ | ⟨hne, hold⟩
    · exact (h.ledgers _ ledger hledger).resolve hx hpending (hlisted hpending)
    · exact (h.ledgers m found hold).elsewhere hx hne
  · obtain ⟨y', hy', hsame, hunresolved⟩ : ∃ y', s.entries[a]? = some y' ∧
        (y.ledger = y'.ledger ∧ y.request = y'.request ∧ y.owner = y'.owner ∧
          y.fingerprint = y'.fingerprint) ∧ (y.result = none → y'.result = none) := by
      rcases get_set.mp hy with ⟨rfl, -, rfl⟩ | ⟨-, hold⟩
      · exact ⟨x, hx, ⟨rfl, rfl, rfl, rfl⟩, fun hnone => by cases hnone⟩
      · exact ⟨y, hold, ⟨rfl, rfl, rfl, rfl⟩, fun hnone => hnone⟩
    obtain ⟨hl, hr, ho, hf⟩ := hsame
    have he := h.entries a y' hy'
    obtain ⟨found, hfound, hd, hin⟩ := he.home
    obtain ⟨d, hown, hexecutes⟩ := he.owned
    refine ⟨?_, by rw [hr, hf]; exact he.fingerprint, ?_⟩
    · rw [hl, hr]
      by_cases heq : y'.ledger = x.ledger
      · rw [heq, hledger, Option.some.injEq] at hfound
        rw [← hfound] at hd hin
        exact ⟨_, get_set.mpr (.inl ⟨heq, hltl, rfl⟩), hd, fun hnone => hin (hunresolved hnone)⟩
      · exact ⟨found, get_set.mpr (.inr ⟨heq, hfound⟩), hd, fun hnone => hin (hunresolved hnone)⟩
    · rw [ho]
      by_cases heq : y'.owner = n
      · rw [heq, hn, Option.some.injEq] at hown
        rw [← hown] at hexecutes
        exact ⟨_, get_set.mpr (.inl ⟨heq, hltn, rfl⟩), hexecutes⟩
      · exact ⟨d, get_set.mpr (.inr ⟨heq, hown⟩), hexecutes⟩
  · rcases get_set.mp hm with ⟨rfl, -, rfl⟩ | ⟨hne, hold⟩
    · rw [CallSound]
      dsimp only
      rw [hrole]
      exact ⟨_, get_set.mpr (.inl ⟨rfl, hlt, rfl⟩), howner, hrequest, .inr ⟨recorded, rfl, rfl⟩⟩
    · exact (h.calls m d hold).resolve hne hx howner hpending
  · rw [List.length_set]
    exact h.runs a ha

end Finishing

theorem join_sound (h : Sound o s) {r : CommandRequest ν} {now : ℤ} {fingerprint : Str} {l e : ℕ}
    {ledger : Ledger} (hl : s.ledgers[l]? = some ledger)
    (hconnection : ledger.connectionId = r.connectionId)
    (hfingerprint : r.contents.fingerprint o.sha256 = .ok fingerprint)
    (hprior : Entries.get ledger.entries r.commandId = some e) :
    Sound o (join s r now fingerprint e) := by
  obtain ⟨x, hx, hledger, hid⟩ := (h.ledgers l ledger hl).listed _ (Entries.mem_of_get hprior)
  obtain ⟨home, hhome, hsame, -⟩ := (h.entries e x hx).home
  rw [hledger, hl, Option.some.injEq] at hhome
  rw [join, hx]
  dsimp only
  split_ifs with hcontents
  · exact h.refused _ _
  · rw [not_not] at hcontents
    have hnames : Names r o x :=
      ⟨by rw [← hsame, ← hhome, hconnection], hid.symm, by rw [hfingerprint, hcontents]⟩
    rcases hresult : x.result with _ | result
    · exact h.call ⟨x, hx, hnames, .inl ⟨_, rfl, stopped_own r now⟩⟩
    · exact h.call ⟨x, hx, hnames, .inr (.inl ⟨result, hresult, rfl⟩)⟩

theorem begin_sound {r : CommandRequest ν} {now : ℤ} {fingerprint : Str} {l : ℕ}
    {kept : List (ProtocolId × ℕ)} (h : Sound o s)
    (henter : Sound o (s.enter r now fingerprint l kept)) :
    Sound o { s.enter r now fingerprint l kept with runs := s.runs ++ [s.entries.length] } := by
  refine ⟨henter.found, henter.homes, henter.ledgers, henter.entries, henter.calls, ?_, fun e he => ?_⟩
  · refine List.nodup_append.mpr ⟨h.runsOnce, List.nodup_singleton _, fun a ha b hb heq => ?_⟩
    rw [heq, List.mem_singleton.mp hb] at ha
    exact lt_irrefl _ (h.runs _ ha)
  · have hlength : (s.enter r now fingerprint l kept).entries.length = s.entries.length + 1 := by
      simp [State.enter]
    dsimp only
    rw [hlength]
    rcases List.mem_append.mp he with hold | hnew
    · exact Nat.lt_succ_of_lt (h.runs e hold)
    · rw [List.mem_singleton.mp hnew]
      exact Nat.lt_succ_self _

theorem admitInto_sound (h : Sound o s) {r : CommandRequest ν} {now : ℤ} {l : ℕ} {ledger : Ledger}
    (hl : s.ledgers[l]? = some ledger) (hconnection : ledger.connectionId = r.connectionId) :
    Sound o (admitInto o s r now l) := by
  have hledger := ledger_of hl
  rw [admitInto]
  rcases hfingerprint : r.contents.fingerprint o.sha256 with message | fingerprint
  · exact h.call (.inl ⟨message, rfl⟩)
  dsimp only
  rw [hledger]
  rcases hprior : Entries.get ledger.entries r.commandId with _ | e
  · dsimp only
    rw [admitNew, hledger]
    split_ifs with hfull
    · exact h.refused _ _
    rcases hroom : s.room ledger.entries with _ | kept
    · exact h.refused _ _
    have hroomy := room_roomy (h.ledgers l ledger hl).ids hroom
    have henter := enter_sound h now hl hconnection hfingerprint hprior (by omega) hroomy
    dsimp only
    rw [execute]
    rcases refusal o r with _ | error
    · dsimp only
      split_ifs
      · exact begin_sound h henter
      · exact henter
    · exact finish_sound henter (get_concat.mpr (.inr ⟨rfl, rfl⟩)) rfl rfl _
  · exact join_sound h hl hconnection hfingerprint hprior

theorem commandWithOutcome_sound (h : Sound o s) (r : CommandRequest ν) (now : ℤ) :
    Sound o (commandWithOutcome o s r now) := by
  rw [commandWithOutcome]
  rcases r.validateRequestContext with message | ⟨⟩
  · exact h.call (.inl ⟨message, rfl⟩)
  dsimp only
  split_ifs
  · exact h.refused _ _
  rcases hopen : s.openLedger r.connectionId with _ | ⟨s', l⟩
  · exact h.refused _ _
  obtain ⟨hs', hopened⟩ := openLedger_sound h hopen
  obtain ⟨ledger, hl, hconnection⟩ := hs'.homes _ l hopened.here
  exact admitInto_sound hs' hl hconnection

theorem stop_sound (h : Sound o s) {n : ℕ} {c : Call ν} (hn : s.calls[n]? = some c)
    {stopped : Option (OperationError ν)} (hrun : c.progress = .running stopped)
    {reason : Interruption} (hreaches : reason.reaches c.request = true) :
    Sound o (s.stop o n c reason.error) := by
  have hcall := h.calls n c hn
  rw [CallSound] at hcall
  rw [State.stop]
  rcases hrole : c.role with _ | e | e
  · exact h
  · rw [hrole] at hcall
    obtain ⟨x, hx, hnames, -⟩ := hcall
    dsimp only
    rw [dispatched_own]
    refine h.answer hn ?_
    rw [CallSound]
    dsimp only
    rw [hrole]
    exact ⟨x, hx, hnames, .inr (.inr ⟨reason, hreaches, rfl⟩)⟩
  · exact finish_sound h hn hrole hrun _

theorem step_sound (h : Sound o s) (input : Input ν τ) : Sound o (step o s input) := by
  cases input with
  | request r now => exact commandWithOutcome_sound h r now
  | completed n outcome =>
    rw [step, complete]
    rcases hn : s.calls[n]? with _ | c
    · exact h
    dsimp only
    split
    · exact finish_sound h hn ‹_› ‹_› _
    · exact h
  | interrupted n reason =>
    rw [step, interrupt]
    rcases hn : s.calls[n]? with _ | c
    · exact h
    dsimp only
    split
    · split_ifs with hreaches
      · exact stop_sound h hn ‹_› hreaches
      · exact h
    · exact h
  | resumed n =>
    rw [step, resume]
    rcases hn : s.calls[n]? with _ | c
    · exact h
    dsimp only
    rcases hrun : c.progress with stopped | ⟨envelope, executed⟩ | message
    · rcases stopped with _ | error
      · dsimp only
        rcases hrole : c.role with _ | e | e
        · exact h
        · dsimp only
          rcases hresult : (s.entries[e]?).bind CommandEntry.result with _ | result
          · exact h
          have hcall := h.calls n c hn
          rw [CallSound, hrole] at hcall
          obtain ⟨x, hx, hnames, -⟩ := hcall
          rw [hx, Option.bind_some] at hresult
          refine h.answer hn ?_
          rw [CallSound]
          dsimp only
          rw [hrole]
          exact ⟨x, hx, hnames, .inr (.inl ⟨result, hresult, rfl⟩)⟩
        · exact h
      · obtain ⟨reason, hreaches, rfl⟩ := (h.calls n c hn).running hrun error rfl
        exact stop_sound h hn hrun hreaches
    · exact h
    · exact h

theorem run_sound (inputs : List (Input ν τ)) : Sound o (Runs.after (step o) initial inputs) :=
  Runs.invariant (I := Sound o) (fun _ input h => step_sound h input) initial_sound inputs

end Terminay.Protocol.Dispatch
