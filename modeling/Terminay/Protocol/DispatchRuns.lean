import Terminay.Protocol.DispatchSound
import Terminay.Script.Integers

/-!
# Commands run once

A handler is called for a command id only where the ledger remembers no outcome and no execution
of it.
-/

namespace Terminay.Protocol.Dispatch
open Script Workspace Lists

variable {ν τ : Type} [Engine ν] {o : Options ν τ} {s : State ν}

/-- The execution that a connection's ledger remembers for a command id. -/
def State.retained (s : State ν) (connectionId commandId : ProtocolId) : Option ℕ :=
  (Entries.get s.found connectionId).bind fun l => Entries.get (s.ledger l).entries commandId

/-- Requests of one command: the same connection, the same id, the same contents. -/
def SameCommand (a b : CommandRequest ν) : Prop :=
  a.connectionId = b.connectionId ∧ a.commandId = b.commandId ∧ a.contents.Same b.contents

structure Dispatched (s : State ν) : Prop where
  runsOnce : s.runs.Nodup
  owner : ∀ (e : ℕ) x, s.entries[e]? = some x →
    ∃! n : ℕ, ∃ c : Call ν, s.calls[n]? = some c ∧ c.role = .executes e
  executes : ∀ (n : ℕ) c e, s.calls[n]? = some c → c.role = .executes e →
    ∃ x, s.entries[e]? = some x ∧ Executes n c x
  waits : ∀ (n : ℕ) c e, s.calls[n]? = some c → c.role = .waits e →
    ∃ x, s.entries[e]? = some x ∧ SameCommand c.request x.request ∧ Waits c x
  refused : ∀ (n : ℕ) c, s.calls[n]? = some c → c.role = .refused → Refused c
  pending : ∀ ledger ∈ s.ledgers,
    ledger.pending = (ledger.entries.filter fun d => !resolved s.entries d.2).length ∧
      ledger.pending ≤ maxPendingCommands

def conflictError : OperationError ν :=
  plainError .conflict (js "command identity was reused with different contents") false

structure Serves (o : Options ν τ) (s : State ν) (input : Input ν τ) (s' : State ν) : Prop where
  runs : s'.runs = s.runs ∨ ∃ r now, input = .request r now ∧
    s.retained r.connectionId r.commandId = none ∧ s'.runs = s.runs ++ [s.entries.length] ∧
    s'.retained r.connectionId r.commandId = some s.entries.length ∧
    s'.calls = s.calls ++ [⟨r, .executes s.entries.length, .running none⟩]
  ended : ∀ (n : ℕ) c, s.calls[n]? = some c → (∀ stopped, c.progress ≠ .running stopped) →
    s'.calls[n]? = some c
  reused : ∀ r now e x, input = .request r now → r.validateRequestContext = .ok () →
    r.contents.body.length ≤ o.maxBodyBytes →
    s.retained r.connectionId r.commandId = some e → s.entries[e]? = some x →
    if r.contents.Same x.request.contents then
      s' = s.call r (.waits e) (match x.result with
        | some result => .answered { result with correlationId := r.correlationId } false
        | none => .running (r.stopped now))
    else s' = s.refused r conflictError
  completed : ∀ (n : ℕ) c e outcome, input = .completed n outcome → s.calls[n]? = some c →
    c.role = .executes e → c.progress = .running none →
    ∃ envelope, s'.calls[n]? = some { c with progress := .answered envelope true } ∧
      (s'.entries[e]?).bind CommandEntry.result = some envelope ∧
      envelope = checkedResult (c.request.result (settled o outcome))
  resumed : ∀ (n : ℕ) c e result, input = .resumed n → s.calls[n]? = some c →
    c.role = .waits e → c.progress = .running none →
    (s.entries[e]?).bind CommandEntry.result = some result →
    s'.calls[n]? = some { c with
      progress := .answered { result with correlationId := c.request.correlationId } false }

section Standing

variable [LawfulEngine ν]

theorem Names.same (hsha : Function.Injective o.sha256) {r : CommandRequest ν} {x : CommandEntry ν}
    (h : Names r o x)
    (hx : x.request.contents.fingerprint o.sha256 = .ok x.fingerprint) :
    SameCommand r x.request :=
  ⟨h.1, h.2.1, (CommandContents.fingerprint_same hsha _ _).mp (h.2.2.trans hx.symm)⟩

theorem Sound.dispatched (hsha : Function.Injective o.sha256) (h : Sound o s) : Dispatched s where
  runsOnce := h.runsOnce
  owner e x hx := by
    obtain ⟨c, hown, hrole⟩ := (h.entries e x hx).owned
    refine ⟨x.owner, ⟨c, hown, hrole⟩, fun n ⟨d, hn, hexecutes⟩ => ?_⟩
    have hcall := h.calls n d hn
    rw [CallSound, hexecutes] at hcall
    obtain ⟨y, hy, howner, -⟩ := hcall
    rw [hx, Option.some.injEq] at hy
    rw [hy]
    exact howner.symm
  executes n c e hn hrole := by
    have hcall := h.calls n c hn
    rwa [CallSound, hrole] at hcall
  waits n c e hn hrole := by
    have hcall := h.calls n c hn
    rw [CallSound, hrole] at hcall
    obtain ⟨x, hx, hnames, hwaits⟩ := hcall
    exact ⟨x, hx, hnames.same hsha (h.entries e x hx).fingerprint, hwaits⟩
  refused n c hn hrole := by
    have hcall := h.calls n c hn
    rwa [CallSound, hrole] at hcall
  pending ledger hledger := by
    obtain ⟨l, hl⟩ := List.mem_iff_getElem?.mp hledger
    have hsound := h.ledgers l ledger hl
    exact ⟨hsound.pending.trans (List.countP_eq_length_filter ..), hsound.bounded⟩

end Standing

section Serving

theorem finish_runs (s : State ν) (n : ℕ) (c : Call ν) (e : ℕ) (outcome : CommandOutcome ν) :
    (s.finish n c e outcome).runs = s.runs := by
  rw [State.finish]
  split
  · rfl
  · rfl

theorem finish_settled {n m : ℕ} {c d : Call ν} {e : ℕ} {outcome : CommandOutcome ν}
    (hm : s.calls[m]? = some d) (hne : m ≠ n) : (s.finish n c e outcome).calls[m]? = some d := by
  rw [State.finish]
  split
  · exact hm
  · exact get_set.mpr (.inr ⟨hne, hm⟩)

theorem answer_settled {n m : ℕ} {c d : Call ν} {envelope : CommandResult ν} {executed : Bool}
    (hm : s.calls[m]? = some d) (hne : m ≠ n) :
    (s.answer n c envelope executed).calls[m]? = some d :=
  get_set.mpr (.inr ⟨hne, hm⟩)

theorem stop_runs (s : State ν) (n : ℕ) (c : Call ν) (error : OperationError ν) :
    (s.stop o n c error).runs = s.runs := by
  rw [State.stop]
  split
  · exact finish_runs _ _ _ _ _
  · rfl
  · rfl

theorem stop_settled {n m : ℕ} {c d : Call ν} {error : OperationError ν}
    (hm : s.calls[m]? = some d) (hne : m ≠ n) : (s.stop o n c error).calls[m]? = some d := by
  rw [State.stop]
  split
  · exact finish_settled hm hne
  · exact answer_settled hm hne
  · exact hm

theorem other_serves (s : State ν) (input : Input ν τ) (hinput : ∀ r now, input ≠ .request r now) :
    (step o s input).runs = s.runs ∧ ∀ (n : ℕ) c, s.calls[n]? = some c →
      (∀ stopped, c.progress ≠ .running stopped) → (step o s input).calls[n]? = some c := by
  cases input with
  | request r now => exact absurd rfl (hinput r now)
  | completed n outcome =>
    rw [step, complete]
    rcases hn : s.calls[n]? with _ | c
    · exact ⟨rfl, fun m d hm _ => hm⟩
    dsimp only
    split
    · refine ⟨finish_runs _ _ _ _ _, fun m d hm hended => finish_settled hm fun heq => ?_⟩
      rw [heq, hn, Option.some.injEq] at hm
      exact hended none (by rw [← hm]; assumption)
    · exact ⟨rfl, fun m d hm _ => hm⟩
  | interrupted n reason =>
    rw [step, interrupt]
    rcases hn : s.calls[n]? with _ | c
    · exact ⟨rfl, fun m d hm _ => hm⟩
    dsimp only
    split
    · split_ifs
      · refine ⟨stop_runs _ _ _ _, fun m d hm hended => stop_settled hm fun heq => ?_⟩
        rw [heq, hn, Option.some.injEq] at hm
        exact hended none (by rw [← hm]; assumption)
      · exact ⟨rfl, fun m d hm _ => hm⟩
    · exact ⟨rfl, fun m d hm _ => hm⟩
  | resumed n =>
    rw [step, resume]
    rcases hn : s.calls[n]? with _ | c
    · exact ⟨rfl, fun m d hm _ => hm⟩
    dsimp only
    split
    · refine ⟨stop_runs _ _ _ _, fun m d hm hended => stop_settled hm fun heq => ?_⟩
      rw [heq, hn, Option.some.injEq] at hm
      exact hended _ (by rw [← hm]; assumption)
    · split
      · split
        · refine ⟨rfl, fun m d hm hended => answer_settled hm fun heq => ?_⟩
          rw [heq, hn, Option.some.injEq] at hm
          exact hended none (by rw [← hm]; assumption)
        · exact ⟨rfl, fun m d hm _ => hm⟩
      · exact ⟨rfl, fun m d hm _ => hm⟩
    · exact ⟨rfl, fun m d hm _ => hm⟩

def Appends (s : State ν) (r : CommandRequest ν) (s' : State ν) : Prop :=
  ∃ role progress, s'.calls = s.calls ++ [⟨r, role, progress⟩]

theorem Appends.settled {r : CommandRequest ν} {s' : State ν} (h : Appends s r s') {n : ℕ}
    {c : Call ν} (hn : s.calls[n]? = some c) : s'.calls[n]? = some c := by
  obtain ⟨role, progress, h⟩ := h
  rw [h]
  exact get_concat.mpr (.inl hn)

theorem finish_appends (s : State ν) (r : CommandRequest ν) (now : ℤ) (fingerprint : Str) (l : ℕ)
    (kept : List (ProtocolId × ℕ)) (outcome : CommandOutcome ν) :
    Appends s r ((s.enter r now fingerprint l kept).finish s.calls.length
      ⟨r, .executes s.entries.length, .running (r.stopped now)⟩ s.entries.length outcome) := by
  rw [State.finish]
  split
  · exact ⟨.executes s.entries.length, .running (r.stopped now), rfl⟩
  · refine ⟨.executes s.entries.length,
      .answered (checkedResult (r.result outcome)) true, ?_⟩
    change (s.calls ++ [_]).set s.calls.length _ = _
    rw [List.set_append_right _ _ le_rfl, Nat.sub_self, List.set_cons_zero]

theorem enter_retained {r : CommandRequest ν} (now : ℤ) (fingerprint : Str) {l : ℕ}
    {kept : List (ProtocolId × ℕ)} (hfound : Entries.get s.found r.connectionId = some l)
    (hl : l < s.ledgers.length) (hkept : (Entries.keys kept).Nodup) :
    (s.enter r now fingerprint l kept).retained r.connectionId r.commandId =
      some s.entries.length := by
  have hledger : (s.enter r now fingerprint l kept).ledger l = _ :=
    ledger_of (get_set.mpr (.inl ⟨rfl, hl, rfl⟩))
  have hget : Entries.get (s.enter r now fingerprint l kept).found r.connectionId = some l := hfound
  rw [State.retained, hget, Option.bind_some, hledger]
  exact Entries.get_set_self hkept _ _

theorem unretained {connectionId : ProtocolId} (commandId : ProtocolId) {s' : State ν} {l : ℕ}
    (hopen : s.openLedger connectionId = some (s', l))
    (hnew : Entries.get (s'.ledger l).entries commandId = none) :
    s.retained connectionId commandId = none := by
  rw [State.openLedger] at hopen
  rw [State.retained]
  rcases hget : Entries.get s.found connectionId with _ | l'
  · rfl
  · rw [hget] at hopen
    cases hopen
    exact hnew

structure Requested (s : State ν) (r : CommandRequest ν) (s' : State ν) : Prop where
  appends : Appends s r s'
  runs : s'.runs = s.runs ∨ s.retained r.connectionId r.commandId = none ∧
    s'.runs = s.runs ++ [s.entries.length] ∧
    s'.retained r.connectionId r.commandId = some s.entries.length ∧
    s'.calls = s.calls ++ [⟨r, .executes s.entries.length, .running none⟩]

theorem join_requested (r : CommandRequest ν) (now : ℤ) (fingerprint : Str) {e : ℕ}
    {x : CommandEntry ν} (hx : s.entries[e]? = some x) :
    Appends s r (join s r now fingerprint e) ∧ (join s r now fingerprint e).runs = s.runs := by
  rw [join, hx]
  dsimp only
  split_ifs
  · exact ⟨⟨_, _, rfl⟩, rfl⟩
  · rcases x.result with _ | result
    · exact ⟨⟨_, _, rfl⟩, rfl⟩
    · exact ⟨⟨_, _, rfl⟩, rfl⟩

theorem admitInto_requested (h : Sound o s) {r : CommandRequest ν} {now : ℤ} {s' : State ν} {l : ℕ}
    (hopen : s.openLedger r.connectionId = some (s', l)) :
    Requested s r (admitInto o s' r now l) := by
  obtain ⟨hs', hopened⟩ := openLedger_sound h hopen
  obtain ⟨ledger, hl, -⟩ := hs'.homes _ l hopened.here
  have hlt := (List.getElem?_eq_some_iff.mp hl).1
  rw [admitInto]
  rcases r.contents.fingerprint o.sha256 with message | fingerprint
  · exact ⟨⟨_, _, congrArg (· ++ _) hopened.calls⟩, .inl hopened.runs⟩
  dsimp only
  rw [ledger_of hl]
  rcases hprior : Entries.get ledger.entries r.commandId with _ | e
  · dsimp only
    have hnone := unretained r.commandId hopen
      (by rw [ledger_of hl]; exact hprior)
    rw [admitNew, ledger_of hl]
    split_ifs
    · exact ⟨⟨_, _, congrArg (· ++ _) hopened.calls⟩, .inl hopened.runs⟩
    rcases hroom : s'.room ledger.entries with _ | kept
    · exact ⟨⟨_, _, congrArg (· ++ _) hopened.calls⟩, .inl hopened.runs⟩
    have hroomy := room_roomy (hs'.ledgers l ledger hl).ids hroom
    dsimp only
    rw [execute]
    rcases refusal o r with _ | error
    · dsimp only
      split_ifs with hstopped
      · rw [Option.isNone_iff_eq_none] at hstopped
        refine ⟨⟨_, _, congrArg (· ++ _) hopened.calls⟩, .inr ⟨hnone, ?_, ?_, ?_⟩⟩
        · rw [← hopened.entries, ← hopened.runs]
        · rw [← hopened.entries]
          exact enter_retained now fingerprint hopened.here hlt hroomy.ids
        · rw [← hopened.entries, ← hopened.calls, ← hstopped]
          rfl
      · exact ⟨⟨_, _, congrArg (· ++ _) hopened.calls⟩, .inl hopened.runs⟩
    · dsimp only
      refine ⟨?_, .inl ((finish_runs _ _ _ _ _).trans hopened.runs)⟩
      obtain ⟨role, progress, happends⟩ := finish_appends s' r now fingerprint l kept
        (.failed error)
      exact ⟨role, progress, happends.trans (by rw [hopened.calls])⟩
  · obtain ⟨x, hx, -⟩ := (hs'.ledgers l ledger hl).listed _ (Entries.mem_of_get hprior)
    obtain ⟨⟨role, progress, happends⟩, hruns⟩ :=
      join_requested r now fingerprint hx
    exact ⟨⟨role, progress, happends.trans (by rw [hopened.calls])⟩, .inl (hruns.trans hopened.runs)⟩

theorem commandWithOutcome_requested (h : Sound o s) (r : CommandRequest ν) (now : ℤ) :
    Requested s r (commandWithOutcome o s r now) := by
  rw [commandWithOutcome]
  rcases r.validateRequestContext with message | ⟨⟩
  · exact ⟨⟨_, _, rfl⟩, .inl rfl⟩
  dsimp only
  split_ifs
  · exact ⟨⟨_, _, rfl⟩, .inl rfl⟩
  rcases hopen : s.openLedger r.connectionId with _ | ⟨s', l⟩
  · exact ⟨⟨_, _, rfl⟩, .inl rfl⟩
  · exact admitInto_requested h hopen

variable [LawfulEngine ν]

theorem request_reused (hsha : Function.Injective o.sha256) (h : Sound o s)
    {r : CommandRequest ν} {now : ℤ} {e : ℕ} {x : CommandEntry ν}
    (hvalid : r.validateRequestContext = .ok ())
    (hbody : r.contents.body.length ≤ o.maxBodyBytes)
    (hretained : s.retained r.connectionId r.commandId = some e) (hx : s.entries[e]? = some x) :
    if r.contents.Same x.request.contents then
      commandWithOutcome o s r now = s.call r (.waits e) (match x.result with
        | some result => .answered { result with correlationId := r.correlationId } false
        | none => .running (r.stopped now))
    else commandWithOutcome o s r now = s.refused r conflictError := by
  rw [State.retained, Option.bind_eq_some_iff] at hretained
  obtain ⟨l, hl, hprior⟩ := hretained
  have hopen : s.openLedger r.connectionId = some (s, l) := by rw [State.openLedger, hl]
  have hfingerprint := r.contents.fingerprint_total o.sha256
  have hsame := CommandContents.fingerprint_same hsha r.contents x.request.contents
  rw [(h.entries e x hx).fingerprint, hfingerprint, Except.ok.injEq] at hsame
  rw [commandWithOutcome, hvalid]
  dsimp only
  rw [if_neg (Nat.not_lt.mpr hbody), hopen]
  dsimp only
  rw [admitInto, hfingerprint]
  dsimp only
  rw [hprior]
  dsimp only
  rw [join, hx]
  dsimp only
  by_cases hcontents : r.contents.Same x.request.contents
  · rw [if_pos hcontents, if_neg (not_not.mpr (hsame.mpr hcontents).symm)]
    rcases x.result with _ | result
    · rfl
    · rfl
  · rw [if_neg hcontents, if_pos fun heq => hcontents (hsame.mp heq.symm)]
    rfl

theorem step_serves (hsha : Function.Injective o.sha256) (h : Sound o s) (input : Input ν τ) :
    Serves o s input (step o s input) where
  runs := by
    cases input with
    | request r now =>
      rcases (commandWithOutcome_requested h r now).runs with hsame | hran
      · exact .inl hsame
      · exact .inr ⟨r, now, rfl, hran⟩
    | _ => exact .inl (other_serves s _ fun _ _ heq => by cases heq).1
  ended n c hn hended := by
    cases input with
    | request r now => exact (commandWithOutcome_requested h r now).appends.settled hn
    | _ => exact (other_serves s _ fun _ _ heq => by cases heq).2 n c hn hended
  reused r now e x hinput hvalid hbody hretained hx := by
    rw [hinput]
    exact request_reused hsha h hvalid hbody hretained hx
  completed n c e outcome hinput hn hrole hrun := by
    have hcall := h.calls n c hn
    rw [CallSound, hrole] at hcall
    obtain ⟨x, hx, -⟩ := hcall
    have hlt := (List.getElem?_eq_some_iff.mp hx).1
    have hltn := (List.getElem?_eq_some_iff.mp hn).1
    rw [hinput, step, complete, hn]
    dsimp only
    rw [hrole, hrun]
    dsimp only
    rw [State.finish, hx]
    refine ⟨_, get_set.mpr (.inl ⟨rfl, hltn, by rw [← hrole]⟩), ?_, rfl⟩
    rw [get_set.mpr (.inl ⟨rfl, hlt, rfl⟩)]
    rfl
  resumed n c e result hinput hn hrole hrun hresult := by
    have hltn := (List.getElem?_eq_some_iff.mp hn).1
    rw [hinput, step, resume, hn]
    dsimp only
    rw [hrun]
    dsimp only
    rw [hrole]
    dsimp only
    rw [hresult]
    exact get_set.mpr (.inl ⟨rfl, hltn, by rw [← hrole]⟩)

/-- Every run of a dispatcher, and every input after it. -/
theorem dispatch_runs (hsha : Function.Injective o.sha256) (inputs : List (Input ν τ)) :
    Dispatched (Runs.after (step o) initial inputs) ∧ ∀ input : Input ν τ,
      Serves o (Runs.after (step o) initial inputs) input
        (step o (Runs.after (step o) initial inputs) input) :=
  ⟨(run_sound inputs).dispatched hsha, fun input => step_serves hsha (run_sound inputs) input⟩

def openOptions : Options ℤ Unit where
  hasCommand _ := true
  commandScope _ := none
  maxBodyBytes := 64
  sha256 bytes := bytes.map fun b => UInt16.ofNat b.toNat
  serviceError _ := none

def renameRequest (correlationId : String) : CommandRequest ℤ where
  connectionId := js "connection"
  clientId := js "client"
  authScope := .write
  deadline := none
  aborted := false
  commandId := js "command"
  correlationId := js correlationId
  contents := ⟨js "project.rename", .null, none, [], ⟨rfl, rfl⟩, rfl⟩

/-- A command asked for twice, executed, and answered to both. -/
def askedTwice : List (Input ℤ Unit) :=
  [.request (renameRequest "first") 0, .request (renameRequest "second") 0,
    .completed 0 (.ok .null), .resumed 1]

theorem dispatch_runs_twice : Dispatched (Runs.after (step openOptions) initial askedTwice) := by
  refine (dispatch_runs (fun a b hab => ?_) askedTwice).1
  have hbyte : Function.Injective fun b : UInt8 => UInt16.ofNat b.toNat := by
    intro b c hbc
    have hnat := congrArg UInt16.toNat hbc
    simp only [UInt16.toNat_ofNat'] at hnat
    have hb := b.toNat_lt
    have hc := c.toNat_lt
    exact UInt8.toNat_inj.mp (by omega)
  exact List.map_injective_iff.mpr hbyte hab

/-- Both calls end with the handler's one result; the first executed it. -/
example : ((Runs.after (step openOptions) initial askedTwice).calls.map fun c =>
    match c.progress with
    | .answered envelope executed => (envelope.correlationId, executed)
    | _ => ([], false)) = [(js "first", true), (js "second", false)] := by
  decide +kernel

end Serving

end Terminay.Protocol.Dispatch
