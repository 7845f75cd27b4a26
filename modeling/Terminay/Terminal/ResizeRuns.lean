import Terminay.Lib.Lists
import Terminay.Terminal.ResizeOwnership

/-!
# Runs of resize ownership

The owner is checked before the wait and written after it.
-/

namespace Terminay.Terminal
open Script Outcome

/-- The wait ends with the new size taken and a lease within bounds. -/
def PendingResize.succeeds (options : ResizeOptions) (pending : PendingResize) :
    Except Thrown (Option TerminalSessionSnapshot) → Bool
  | .ok (some _) => isOk (boundedPositive (pending.request.leaseMs.getD options.resizeLeaseMs)
      options.maxResizeLeaseMs "resize lease is out of bounds")
  | _ => false

def recordOf (key : Str) : ResizeEvent → Option ResizeOwnership
  | .recorded k owner _ _ _ => if k = key then some owner else none
  | _ => none

def recorded (log : List ResizeEvent) (key : Str) : List ResizeOwnership :=
  log.filterMap (recordOf key)

namespace ResizeAdapter

def Unmoved (options : ResizeOptions) (a : ResizeAdapter) : ResizeInput → Prop
  | .resized index outcome _ => ∀ p ∈ a.pending[index]?, p.succeeds options outcome = true →
      (a.owners[p.request.key]? = none ∨ a.owners[p.request.key]? = p.owner) ∧
        ∀ e ∈ a.log.drop p.issued, ¬ e.Releases p.request.key p.request.clientId
  | _ => True

def Latest (options : ResizeOptions) (a : ResizeAdapter) : ResizeInput → Prop
  | .resized index outcome _ => ∀ p ∈ a.pending[index]?, p.succeeds options outcome = true →
      (recorded a.log p.request.key).getLast? = p.owner
  | _ => True

instance (options : ResizeOptions) (a : ResizeAdapter) :
    DecidablePred (Unmoved options a) := fun input => by
  unfold Unmoved
  cases input <;> infer_instance

instance (options : ResizeOptions) (a : ResizeAdapter) :
    DecidablePred (Latest options a) := fun input => by
  unfold Latest
  cases input <;> infer_instance

end ResizeAdapter

def Respected (log : List ResizeEvent) : Prop :=
  ∀ before key owner replaced issued now after,
    log = before ++ ResizeEvent.recorded key owner replaced issued now :: after →
    (∀ o ∈ replaced, (o.clientId = owner.clientId ∨ o.leaseExpiresAt ≤ now) ∧
      o.revision < owner.revision) ∧
    ∀ e ∈ before.drop issued, ¬ e.Releases key owner.clientId

theorem finishResize_ok {options : ResizeOptions} {pending : PendingResize}
    {outcome : Except Thrown (Option TerminalSessionSnapshot)} {owner : ResizeOwnership}
    (h : finishResize options pending outcome = .ok owner) :
    pending.succeeds options outcome = true ∧ owner.clientId = pending.request.clientId ∧
      owner.revision = (pending.owner.map ResizeOwnership.revision).getD 0 + 1 := by
  rw [finishResize] at h
  rcases outcome with error | snapshot
  · cases h
  · rcases snapshot with _ | snapshot
    · cases h
    · simp only [bind_ok] at h
      obtain ⟨_, -, _, -, lease, hlease, howner⟩ := h
      cases howner
      have hsucceeds : pending.succeeds options (.ok (some snapshot)) = true := by
        rw [PendingResize.succeeds, hlease]
        rfl
      exact ⟨hsucceeds, rfl, rfl⟩

theorem startResize_waits {owners : ResizeOwners} {request : TerminalResizeRequest}
    {snapshot : Option TerminalSessionSnapshot} {now : ℤ} {owner : Option ResizeOwnership}
    (h : (startResize owners request snapshot now).1 = .waits owner) :
    ∀ o ∈ owner, o.clientId = request.clientId := by
  intro o ho
  rw [startResize] at h
  split at h
  · cases h
  · dsimp only at h
    split at h
    · cases h
    · rename_i hcontested
      split_ifs at h
      simp only [ResizeStart.waits.injEq] at h
      rw [h, ho, contestedSize] at hcontested
      by_contra hne
      simp [hne] at hcontested

theorem resized_cases (options : ResizeOptions) (a : ResizeAdapter) (index : ℕ)
    (outcome : Except Thrown (Option TerminalSessionSnapshot)) (now : ℤ) :
    a.resized options index outcome now = a ∨
    a.resized options index outcome now = { a with pending := a.pending.eraseIdx index } ∨
    ∃ p owner, a.pending[index]? = some p ∧ p.succeeds options outcome = true ∧
      owner.clientId = p.request.clientId ∧
      owner.revision = (p.owner.map ResizeOwnership.revision).getD 0 + 1 ∧
      a.resized options index outcome now =
        { owners := a.owners.insert p.request.key owner
          pending := a.pending.eraseIdx index
          log := a.log ++
            [.recorded p.request.key owner a.owners[p.request.key]? p.issued now] } := by
  simp only [ResizeAdapter.resized]
  rcases hpending : a.pending[index]? with _ | pending
  · exact .inl rfl
  · rcases hfinish : finishResize options pending outcome with error | owner
    · refine .inr (.inl ?_)
      simp only [hfinish]
    · obtain ⟨hsucceeds, hclient, hrevision⟩ := finishResize_ok hfinish
      refine .inr (.inr ⟨pending, owner, rfl, hsucceeds, hclient, hrevision, ?_⟩)
      simp only [hfinish, ResizeAdapter.record]

def Silent (event : ResizeEvent) : Prop := ∀ key, recordOf key event = none

theorem respected_concat {log : List ResizeEvent} (h : Respected log) {event : ResizeEvent}
    (hevent : ∀ key owner replaced issued now, event = .recorded key owner replaced issued now →
      (∀ o ∈ replaced, (o.clientId = owner.clientId ∨ o.leaseExpiresAt ≤ now) ∧
        o.revision < owner.revision) ∧
      ∀ e ∈ log.drop issued, ¬ e.Releases key owner.clientId) :
    Respected (log ++ [event]) := by
  intro before key owner replaced issued now after hsplit
  rcases Lists.split_append_singleton hsplit with ⟨hbefore, heq⟩ | ⟨after', hold⟩
  · rw [← hbefore]
    exact hevent key owner replaced issued now heq.symm
  · exact h before key owner replaced issued now after' hold

theorem respected_silent {log : List ResizeEvent} (h : Respected log) {event : ResizeEvent}
    (hsilent : Silent event) : Respected (log ++ [event]) := by
  refine respected_concat h ?_
  intro key owner replaced issued now heq
  have hnone := hsilent key
  rw [heq, recordOf, if_pos rfl] at hnone
  cases hnone

structure Careful (a : ResizeAdapter) : Prop where
  own : ∀ p ∈ a.pending, ∀ o ∈ p.owner, o.clientId = p.request.clientId
  respected : Respected a.log

namespace Careful

variable {a : ResizeAdapter}

theorem initial : Careful .initial where
  own p hp := by cases hp
  respected before key owner replaced issued now after h :=
    absurd h.symm (List.append_ne_nil_of_right_ne_nil _ (List.cons_ne_nil _ _))

theorem event (h : Careful a) (owners : ResizeOwners) {event : ResizeEvent}
    (hsilent : Silent event) : Careful ⟨owners, a.pending, a.log ++ [event]⟩ where
  own := h.own
  respected := respected_silent h.respected hsilent

theorem resize (h : Careful a) (request : TerminalResizeRequest)
    (snapshot : Option TerminalSessionSnapshot) (now : ℤ) :
    Careful (a.resize request snapshot now) := by
  rw [ResizeAdapter.resize]
  rcases hstart : startResize a.owners request snapshot now with ⟨start, owners⟩
  cases start with
  | thrown error => exact ⟨h.own, h.respected⟩
  | released => exact h.event owners fun _ => rfl
  | waits owner =>
    have hwaits : (startResize a.owners request snapshot now).1 = .waits owner := by
      rw [hstart]
    constructor
    case own =>
      intro p hp
      rcases List.mem_append.mp hp with hp | hp
      · exact h.own p hp
      · rw [List.mem_singleton.mp hp]
        exact startResize_waits hwaits
    case respected => exact respected_silent h.respected fun _ => rfl

theorem resized (h : Careful a) {options : ResizeOptions} {index : ℕ}
    {outcome : Except Thrown (Option TerminalSessionSnapshot)} {now : ℤ}
    (hunmoved : a.Unmoved options (.resized index outcome now)) :
    Careful (a.resized options index outcome now) := by
  have hrest : ∀ p ∈ a.pending.eraseIdx index, ∀ o ∈ p.owner, o.clientId = p.request.clientId :=
    fun p hp => h.own p (List.mem_of_mem_eraseIdx hp)
  rcases resized_cases options a index outcome now with
    heq | heq | ⟨p, owner, hp, hsucceeds, hclient, hrevision, heq⟩
  · rw [heq]
    exact h
  · rw [heq]
    exact ⟨hrest, h.respected⟩
  · rw [heq]
    obtain ⟨hrecord, hkept⟩ := hunmoved p hp hsucceeds
    constructor
    case own => exact hrest
    case respected =>
      refine respected_concat h.respected ?_
      intro key next replaced issued time hevent
      obtain ⟨rfl, rfl, rfl, rfl, rfl⟩ := ResizeEvent.recorded.inj hevent
      rw [hclient]
      refine ⟨?_, hkept⟩
      intro o ho
      -- The record replaced is the one the request saw, which was its own client's.
      have hsaw : p.owner = some o := by
        rcases hrecord with hnone | hsame
        · rw [hnone] at ho
          cases ho
        · exact hsame.symm.trans ho
      have hown := h.own p (List.mem_of_getElem? hp) o hsaw
      have hless : o.revision < owner.revision := by
        rw [hrevision, hsaw]
        exact Nat.lt_succ_self _
      exact ⟨.inl hown, hless⟩

theorem step (h : Careful a) {options : ResizeOptions} {input : ResizeInput}
    (hunmoved : a.Unmoved options input) : Careful (a.step options input) := by
  cases input with
  | resize request snapshot now => exact h.resize request snapshot now
  | resized index outcome now => exact h.resized hunmoved
  | releaseClient identity clientId =>
    rw [ResizeAdapter.step, ResizeAdapter.releaseClient]
    split_ifs
    · exact h.event _ fun _ => rfl
    · exact h
  | releaseSession identity => exact h.event _ fun _ => rfl
  | getResizeOwnership identity now => exact ⟨h.own, h.respected⟩

end Careful

def Increasing (log : List ResizeEvent) : Prop :=
  ∀ key, ((recorded log key).map ResizeOwnership.revision).Pairwise (· < ·)

theorem recorded_none {event : ResizeEvent} {key : Str} (h : recordOf key event = none)
    (log : List ResizeEvent) : recorded (log ++ [event]) key = recorded log key := by
  rw [recorded, List.filterMap_append, List.filterMap_cons, h, List.filterMap_nil,
    List.append_nil, recorded]

theorem recorded_some {event : ResizeEvent} {key : Str} {owner : ResizeOwnership}
    (h : recordOf key event = some owner) (log : List ResizeEvent) :
    recorded (log ++ [event]) key = recorded log key ++ [owner] := by
  rw [recorded, List.filterMap_append, List.filterMap_cons, h, List.filterMap_nil, recorded]

theorem increasing_silent {log : List ResizeEvent} (h : Increasing log) {event : ResizeEvent}
    (hsilent : Silent event) : Increasing (log ++ [event]) := by
  intro key
  rw [recorded_none (hsilent key)]
  exact h key

theorem increasing_recorded {log : List ResizeEvent} (h : Increasing log) {key : Str}
    {owner : ResizeOwnership} {seen replaced : Option ResizeOwnership} {issued : ℕ} {now : ℤ}
    (hlast : (recorded log key).getLast? = seen)
    (hrevision : owner.revision = (seen.map ResizeOwnership.revision).getD 0 + 1) :
    Increasing (log ++ [.recorded key owner replaced issued now]) := by
  intro other
  by_cases hkey : key = other
  · subst hkey
    have hrecord : recordOf key (.recorded key owner replaced issued now) = some owner :=
      if_pos rfl
    rw [recorded_some hrecord, List.map_append]
    refine Lists.pairwise_concat (h key) (fun _ _ => Nat.lt_trans) ?_
    intro revision hrev
    rw [List.getLast?_map, hlast] at hrev
    rw [hrevision, hrev]
    exact Nat.lt_succ_self _
  · have hrecord : recordOf other (.recorded key owner replaced issued now) = none :=
      if_neg hkey
    rw [recorded_none hrecord]
    exact h other

theorem increasing_step {a : ResizeAdapter} (h : Increasing a.log) {options : ResizeOptions}
    {input : ResizeInput} (hlatest : a.Latest options input) :
    Increasing (a.step options input).log := by
  cases input with
  | resize request snapshot now =>
    rw [ResizeAdapter.step, ResizeAdapter.resize]
    rcases startResize a.owners request snapshot now with ⟨start, owners⟩
    cases start with
    | thrown error => exact h
    | released => exact increasing_silent h fun _ => rfl
    | waits owner => exact increasing_silent h fun _ => rfl
  | resized index outcome now =>
    rw [ResizeAdapter.step]
    rcases resized_cases options a index outcome now with
      heq | heq | ⟨p, owner, hp, hsucceeds, -, hrevision, heq⟩
    · rw [heq]
      exact h
    · rw [heq]
      exact h
    · rw [heq]
      exact increasing_recorded h (hlatest p hp hsucceeds) hrevision
  | releaseClient identity clientId =>
    rw [ResizeAdapter.step, ResizeAdapter.releaseClient]
    split_ifs
    · exact increasing_silent h fun _ => rfl
    · exact h
  | releaseSession identity => exact increasing_silent h fun _ => rfl
  | getResizeOwnership identity now => exact h

theorem resize_runs (options : ResizeOptions) (inputs : List ResizeInput) :
    let a := Runs.after (ResizeAdapter.step options) .initial inputs
    (Runs.Meets (ResizeAdapter.step options) (ResizeAdapter.Unmoved options) .initial inputs →
      Respected a.log) ∧
    (Runs.Meets (ResizeAdapter.step options) (ResizeAdapter.Latest options) .initial inputs →
      Increasing a.log) := by
  constructor
  · intro hruns
    have hcareful : Careful (Runs.after (ResizeAdapter.step options) .initial inputs) :=
      Runs.invariant_of_meets (fun _ _ h hunmoved => h.step hunmoved) Careful.initial hruns
    exact hcareful.respected
  · intro hruns
    have hempty : Increasing ResizeAdapter.initial.log := fun _ => List.Pairwise.nil
    exact Runs.invariant_of_meets (I := fun a : ResizeAdapter => Increasing a.log)
      (fun _ _ h hlatest => increasing_step h hlatest) hempty hruns

def resizeOptions : ResizeOptions := ⟨10000, 60000⟩
def terminal : TerminalIdentity := ⟨js "srv", js "p", js "s1"⟩
def terminalSnapshot : TerminalSessionSnapshot := ⟨terminal, .running, ⟨80, 24⟩⟩

def claimBy (client : String) (now : ℤ) : ResizeInput :=
  .resize ⟨terminal, js client, .keyboard, .wide, .claim, some 80, some 24, none, none⟩
    (some terminalSnapshot) now

def taken (index : ℕ) (now : ℤ) : ResizeInput := .resized index (.ok (some terminalSnapshot)) now

def claimedAgain : List ResizeInput := [claimBy "x" 0, taken 0 5, claimBy "x" 10, taken 0 15]

theorem claimed_again_runs :
    let a := Runs.after (ResizeAdapter.step resizeOptions) .initial claimedAgain
    Respected a.log ∧ Increasing a.log :=
  ⟨(resize_runs resizeOptions claimedAgain).1 (by decide +kernel),
    (resize_runs resizeOptions claimedAgain).2 (by decide +kernel)⟩

def overlapping : List ResizeInput := [claimBy "x" 0, claimBy "y" 1, taken 0 5, taken 0 6]

def ownedBy (client : String) (expires : ℤ) : ResizeOwnership :=
  ⟨js client, .keyboard, .wide, 80, 24, expires, 1⟩

theorem overlapping_displaces :
    ¬ Respected (Runs.after (ResizeAdapter.step resizeOptions) .initial overlapping).log := by
  intro h
  have hlog : (Runs.after (ResizeAdapter.step resizeOptions) .initial overlapping).log =
      [.requested, .requested, .recorded (sessionKey terminal) (ownedBy "x" 10000) none 0 5,
        .recorded (sessionKey terminal) (ownedBy "y" 10001) (some (ownedBy "x" 10000)) 1 6] := by
    decide +kernel
  have hlast := (h [.requested, .requested,
    .recorded (sessionKey terminal) (ownedBy "x" 10000) none 0 5] _ _ _ _ _ [] hlog).1 _ rfl
  exact absurd hlast.2 (by decide)

end Terminay.Terminal
