import Terminay.Client.Admission
import Terminay.Lib.Lists

/-!
# Runs of the request admission

The counters are those of the reservations that are still held and of the requests in line.
-/

namespace Terminay.Client.Admission

variable {byteBudget : ℕ} {s : RequestAdmission}

def RequestAdmission.held (s : RequestAdmission) : List Reservation :=
  s.reservations.filter fun r => !r.released

structure Keeps (byteBudget : ℕ) (s : RequestAdmission) : Prop where
  outstanding : s.outstanding = s.held.length
  outstandingBytes : s.outstandingBytes = (s.held.map (·.bytes)).sum
  few : s.outstanding ≤ 128
  budgeted : s.outstandingBytes ≤ byteBudget
  waitingBytes : s.waitingBytes = (s.waiting.map (·.bytes)).sum
  /-- Reservations are made in arrival order, and before those that still wait. -/
  arrivalOrder : (s.reservations.map (·.request) ++ s.waiting.map (·.request)).Pairwise (· < ·)
  settledOnce : ∀ request, (s.settled.map (·.1)).count request =
    if request ∈ s.promised ∧ request ∉ s.waiting.map (·.request) then 1 else 0
  promised : ∀ entry ∈ s.waiting, entry.request ∈ s.promised
  granted : ∀ request k, (request, .resolved k) ∈ s.settled →
    ∃ r, s.reservations[k]? = some r ∧ r.request = request
  releasedTwice : ∀ k r, s.reservations[k]? = some r → r.released = true →
    release byteBudget s k = s
  blocked : ∀ entry ∈ s.waiting.head?, ¬ CanAdmit byteBudget s entry.bytes

structure Sound (byteBudget : ℕ) (s : RequestAdmission) : Prop where
  outstanding : s.outstanding = s.held.length
  outstandingBytes : s.outstandingBytes = (s.held.map (·.bytes)).sum
  few : s.outstanding ≤ maxOutstandingRequests
  budgeted : s.outstandingBytes ≤ byteBudget
  waitingBytes : s.waitingBytes = (s.waiting.map (·.bytes)).sum
  arrivalOrder : (s.reservations.map (·.request) ++ s.waiting.map (·.request)).Pairwise (· < ·)
  arrived : ∀ request ∈ s.reservations.map (·.request) ++ s.waiting.map (·.request) ++ s.promised,
    request < s.requests
  distinct : s.promised.Nodup
  settlements : (s.settled.map (·.1) ++ s.waiting.map (·.request)).Perm s.promised
  granted : ∀ request k, (request, .resolved k) ∈ s.settled →
    ∃ r, s.reservations[k]? = some r ∧ r.request = request

def Blocked (byteBudget : ℕ) (s : RequestAdmission) : Prop :=
  ∀ entry ∈ s.waiting.head?, ¬ CanAdmit byteBudget s entry.bytes

theorem Sound.keeps (h : Sound byteBudget s) (hb : Blocked byteBudget s) : Keeps byteBudget s where
  outstanding := h.outstanding
  outstandingBytes := h.outstandingBytes
  few := h.few
  budgeted := h.budgeted
  waitingBytes := h.waitingBytes
  arrivalOrder := h.arrivalOrder
  settledOnce request := by
    have hcount := h.settlements.count_eq request
    rw [List.count_append] at hcount
    have hwaiting : (s.waiting.map (·.request)).Nodup :=
      (h.settlements.nodup_iff.mpr h.distinct).of_append_right
    rw [h.distinct.count, hwaiting.count] at hcount
    split_ifs at hcount ⊢ <;> simp_all
  promised entry hentry :=
    h.settlements.subset (List.mem_append_right _ (List.mem_map_of_mem hentry))
  granted := h.granted
  releasedTwice k r hr hreleased := by
    simp only [release, hr, hreleased, if_true]
  blocked := hb

/-! ## Reservations -/

theorem held_concat (request bytes : ℕ) :
    (reserve s request bytes).held = s.held ++ [⟨request, bytes, false⟩] := by
  simp [RequestAdmission.held, reserve]

theorem get_concat_of_get {k : ℕ} {r x : Reservation} (h : s.reservations[k]? = some r) :
    (s.reservations ++ [x])[k]? = some r :=
  Lists.get_concat.mpr (.inl h)

theorem Sound.grant (h : Sound byteBudget s) {entry : WaitingRequest} {rest : List WaitingRequest}
    (hline : s.waiting = entry :: rest) (hfits : CanAdmit byteBudget s entry.bytes) :
    Sound byteBudget (grant s entry rest) := by
  have horder := h.arrivalOrder
  have harrived := h.arrived
  have hsettlements := h.settlements
  have hbytes := h.waitingBytes
  rw [hline, List.map_cons] at horder harrived hsettlements hbytes
  refine ⟨?_, ?_, ?_, hfits.2, ?_, ?_, ?_, h.distinct, ?_, ?_⟩
  · have hheld : (Admission.grant s entry rest).held = s.held ++ [⟨entry.request, entry.bytes, false⟩] :=
      held_concat entry.request entry.bytes
    rw [hheld, List.length_append]
    exact congrArg (· + 1) h.outstanding
  · have hheld : (Admission.grant s entry rest).held = s.held ++ [⟨entry.request, entry.bytes, false⟩] :=
      held_concat entry.request entry.bytes
    rw [hheld, List.map_append, List.sum_append, List.map_singleton, List.sum_singleton,
      Nat.cast_add]
    exact congrArg (· + (entry.bytes : ℤ)) h.outstandingBytes
  · have hroom := hfits.1
    change s.outstanding + 1 ≤ _
    omega
  · change s.waitingBytes - entry.bytes = _
    rw [List.sum_cons] at hbytes
    change _ = (((rest.map (·.bytes)).sum : ℕ) : ℤ)
    push_cast at hbytes ⊢
    omega
  · simpa [Admission.grant, settle, reserve] using horder
  · intro request hrequest
    refine harrived request ?_
    simpa [Admission.grant, settle, reserve] using hrequest
  · simpa [Admission.grant, settle, reserve] using hsettlements
  · intro request k hk
    change (request, _) ∈ s.settled ++ [_] at hk
    rcases List.mem_append.mp hk with hk | hk
    · obtain ⟨r, hr, hrequest⟩ := h.granted request k hk
      exact ⟨r, get_concat_of_get hr, hrequest⟩
    · cases List.mem_singleton.mp hk
      exact ⟨⟨entry.request, entry.bytes, false⟩, Lists.get_concat.mpr (.inr ⟨rfl, rfl⟩), rfl⟩

theorem drainLoop_sound (line : List WaitingRequest) (h : Sound byteBudget s)
    (hline : s.waiting = line) :
    Sound byteBudget (drainLoop byteBudget line s) ∧
      Blocked byteBudget (drainLoop byteBudget line s) := by
  induction line generalizing s with
  | nil =>
    refine ⟨h, fun entry hentry => ?_⟩
    rw [drainLoop, hline] at hentry
    cases hentry
  | cons entry rest ih =>
    rw [drainLoop]
    split_ifs with hfits
    · exact ih (h.grant hline hfits) rfl
    · refine ⟨h, fun first hfirst => ?_⟩
      rw [hline, List.head?_cons, Option.mem_some_iff] at hfirst
      rwa [← hfirst]

theorem drain_sound (h : Sound byteBudget s) :
    Sound byteBudget (drain byteBudget s) ∧ Blocked byteBudget (drain byteBudget s) :=
  drainLoop_sound s.waiting h rfl

/-! ## Operations -/

theorem new_sound : Sound byteBudget .new := by
  refine ⟨rfl, rfl, by decide, Int.natCast_nonneg _, rfl, List.Pairwise.nil, nofun, List.nodup_nil,
    List.Perm.refl _, nofun⟩

theorem release_sound (h : Sound byteBudget s) (hb : Blocked byteBudget s) (k : ℕ) :
    Sound byteBudget (release byteBudget s k) ∧ Blocked byteBudget (release byteBudget s k) := by
  unfold release
  split
  · exact ⟨h, hb⟩
  · rename_i r hr
    split_ifs with hreleased
    · exact ⟨h, hb⟩
    · have hheld : s.held.Perm (r :: (s.reservations.set k { r with released := true }).filter
          fun r => !r.released) :=
        Lists.filter_set_perm hr (by simp [hreleased]) rfl
      have hrequests : (s.reservations.set k { r with released := true }).map (·.request) =
          s.reservations.map (·.request) := Lists.map_set_key hr rfl
      have hcount := hheld.length_eq
      have hsum := (hheld.map (·.bytes)).sum_eq
      rw [List.length_cons] at hcount
      rw [List.map_cons, List.sum_cons] at hsum
      have houtstanding := h.outstanding
      have hbytes := h.outstandingBytes
      have hfew := h.few
      have hbudgeted := h.budgeted
      apply drain_sound
      refine ⟨?_, ?_, ?_, ?_, h.waitingBytes, ?_, ?_, h.distinct, h.settlements, ?_⟩
      · have hfewer : s.outstanding - 1 = (((s.reservations.set k
            { r with released := true }).filter fun r => !r.released).length : ℤ) := by omega
        exact hfewer
      · have hless : s.outstandingBytes - r.bytes = ((((s.reservations.set k
            { r with released := true }).filter fun r => !r.released).map (·.bytes)).sum : ℕ) := by
          omega
        exact hless
      · change s.outstanding - 1 ≤ _
        omega
      · change s.outstandingBytes - r.bytes ≤ _
        omega
      · rw [hrequests]
        exact h.arrivalOrder
      · rw [hrequests]
        exact h.arrived
      · intro request j hj
        obtain ⟨x, hx, hrequest⟩ := h.granted request j hj
        by_cases hjk : j = k
        · subst hjk
          rw [hr] at hx
          cases hx
          exact ⟨_, Lists.get_set.mpr (.inl ⟨rfl, (List.getElem?_eq_some_iff.mp hr).1, rfl⟩),
            hrequest⟩
        · exact ⟨x, Lists.get_set.mpr (.inr ⟨hjk, hx⟩), hrequest⟩

theorem remove_sound (h : Sound byteBudget s) (hb : Blocked byteBudget s) (request : ℕ)
    (error : AdmissionError) : Sound byteBudget (remove byteBudget s request error) ∧
      Blocked byteBudget (remove byteBudget s request error) := by
  unfold remove
  split
  · exact ⟨h, hb⟩
  · rename_i entry hfind
    have hentry : entry ∈ s.waiting := List.mem_of_find?_eq_some hfind
    have hrequest : entry.request = request := by simpa using List.find?_some hfind
    have hline : s.waiting.Perm (entry :: s.waiting.eraseP fun e => e.request == request) :=
      Lists.find_eraseP_perm hfind
    have hsub : (s.waiting.eraseP fun e => e.request == request).Sublist s.waiting :=
      List.eraseP_sublist
    have hbytes := h.waitingBytes
    have hsum := (hline.map (·.bytes)).sum_eq
    rw [List.map_cons, List.sum_cons] at hsum
    apply drain_sound
    refine ⟨h.outstanding, h.outstandingBytes, h.few, h.budgeted, ?_, ?_, ?_, h.distinct, ?_, ?_⟩
    · change s.waitingBytes - entry.bytes = ((List.sum (List.map _ (List.eraseP _ _)) : ℕ) : ℤ)
      omega
    · exact h.arrivalOrder.sublist ((hsub.map _).append_left _)
    · intro other hother
      refine h.arrived other ?_
      exact (((hsub.map _).append_left _).append_right _).subset hother
    · have hperm := (hline.map (·.request)).append_left (s.settled.map (·.1))
      rw [List.map_cons, hrequest] at hperm
      have hall := hperm.symm.trans h.settlements
      simpa [settle] using hall
    · intro other k hk
      rcases List.mem_append.mp hk with hk | hk
      · exact h.granted other k hk
      · cases List.mem_singleton.mp hk

theorem abort_sound (h : Sound byteBudget s) (hb : Blocked byteBudget s) (signal : ℕ) :
    Sound byteBudget (abort byteBudget s signal) ∧ Blocked byteBudget (abort byteBudget s signal) := by
  unfold abort
  split_ifs
  · exact ⟨h, hb⟩
  · have hstart : Sound byteBudget { s with aborted := insert signal s.aborted } ∧
        Blocked byteBudget { s with aborted := insert signal s.aborted } :=
      ⟨⟨h.outstanding, h.outstandingBytes, h.few, h.budgeted, h.waitingBytes, h.arrivalOrder,
        h.arrived, h.distinct, h.settlements, h.granted⟩, hb⟩
    dsimp only
    generalize (s.waiting.filter fun entry => entry.signal = some signal).map (·.request) = heard
    generalize { s with aborted := insert signal s.aborted } = t at hstart ⊢
    induction heard generalizing t with
    | nil => exact hstart
    | cons request heard ih => exact ih _ (remove_sound hstart.1 hstart.2 request .abort)

theorem expire_sound (h : Sound byteBudget s) (hb : Blocked byteBudget s) (request : ℕ) (now : ℚ) :
    Sound byteBudget (expire byteBudget s request now) ∧
      Blocked byteBudget (expire byteBudget s request now) := by
  unfold expire
  split
  · exact ⟨h, hb⟩
  · split
    · exact ⟨h, hb⟩
    · split_ifs
      · exact ⟨h, hb⟩
      · exact remove_sound h hb request .deadline

theorem clear_sound (h : Sound byteBudget s) :
    Sound byteBudget (clear s) ∧ Blocked byteBudget (clear s) := by
  refine ⟨⟨h.outstanding, h.outstandingBytes, h.few, h.budgeted, rfl, ?_, ?_, h.distinct, ?_, ?_⟩,
    nofun⟩
  · exact h.arrivalOrder.sublist ((List.nil_sublist _).append_left _)
  · intro request hrequest
    refine h.arrived request ?_
    exact (((List.nil_sublist _).append_left _).append_right _).subset hrequest
  · simpa [clear, Function.comp_def] using h.settlements
  · intro request k hk
    rcases List.mem_append.mp hk with hk | hk
    · exact h.granted request k hk
    · simp at hk

theorem Sound.refused (h : Sound byteBudget s) :
    Sound byteBudget { s with requests := s.requests + 1 } :=
  ⟨h.outstanding, h.outstandingBytes, h.few, h.budgeted, h.waitingBytes, h.arrivalOrder,
    fun request hrequest => Nat.lt_succ_of_lt (h.arrived request hrequest), h.distinct,
    h.settlements, h.granted⟩

theorem Sound.reserved (h : Sound byteBudget s) (hempty : s.waiting = []) {bytes : ℕ}
    (hfits : CanAdmit byteBudget s bytes) :
    Sound byteBudget { reserve s s.requests bytes with requests := s.requests + 1 } := by
  have horder := h.arrivalOrder
  have harrived := h.arrived
  rw [hempty, List.map_nil, List.append_nil] at horder harrived
  have hroom := hfits.1
  refine ⟨?_, ?_, ?_, hfits.2, h.waitingBytes, ?_, ?_, h.distinct, h.settlements, ?_⟩
  · change s.outstanding + 1 = ((reserve s s.requests bytes).held.length : ℤ)
    rw [held_concat, List.length_append]
    exact congrArg (· + 1) h.outstanding
  · change s.outstandingBytes + bytes =
      (((reserve s s.requests bytes).held.map (·.bytes)).sum : ℕ)
    rw [held_concat, List.map_append, List.sum_append, List.map_singleton, List.sum_singleton,
      Nat.cast_add]
    exact congrArg (· + (bytes : ℤ)) h.outstandingBytes
  · change s.outstanding + 1 ≤ _
    omega
  · have hlast : (s.reservations.map (·.request) ++ [s.requests]).Pairwise (· < ·) := by
      refine List.pairwise_append.mpr ⟨horder, List.pairwise_singleton _ _, fun a ha b hb => ?_⟩
      rw [List.mem_singleton.mp hb]
      exact harrived a (List.mem_append_left _ ha)
    simpa [reserve, hempty] using hlast
  · intro request hrequest
    have hcases : request ∈ s.reservations.map (·.request) ++ s.promised ∨
        request = s.requests := by
      simp [reserve, hempty] at hrequest ⊢
      grind
    rcases hcases with hrequest | rfl
    · exact Nat.lt_succ_of_lt (harrived request hrequest)
    · exact Nat.lt_succ_self _
  · intro request k hk
    obtain ⟨r, hr, hrequest⟩ := h.granted request k hk
    exact ⟨r, get_concat_of_get hr, hrequest⟩

theorem Sound.waits (h : Sound byteBudget s) (bytes : ℕ) (signal : Option ℕ)
    (deadline : Option ℚ) :
    Sound byteBudget { s with
      waiting := s.waiting ++ [⟨s.requests, bytes, signal, deadline⟩]
      waitingBytes := s.waitingBytes + bytes
      promised := s.promised ++ [s.requests]
      requests := s.requests + 1 } := by
  have hbytes := h.waitingBytes
  refine ⟨h.outstanding, h.outstandingBytes, h.few, h.budgeted, ?_, ?_, ?_, ?_, ?_, h.granted⟩
  · simp only [List.map_append, List.sum_append, List.map_singleton, List.sum_singleton,
      Nat.cast_add]
    omega
  · rw [List.map_append, ← List.append_assoc]
    refine List.pairwise_append.mpr
      ⟨h.arrivalOrder, List.pairwise_singleton _ _, fun a ha b hb => ?_⟩
    rw [List.mem_singleton.mp hb]
    exact h.arrived a (List.mem_append_left _ ha)
  · intro request hrequest
    have hcases : request ∈ s.reservations.map (·.request) ++ s.waiting.map (·.request) ++
        s.promised ∨ request = s.requests := by
      simp at hrequest ⊢
      grind
    rcases hcases with hrequest | rfl
    · exact Nat.lt_succ_of_lt (h.arrived request hrequest)
    · exact Nat.lt_succ_self _
  · refine List.nodup_append.mpr ⟨h.distinct, List.nodup_singleton _, fun a ha b hb => ?_⟩
    rw [List.mem_singleton.mp hb]
    exact (h.arrived a (List.mem_append_right _ ha)).ne
  · rw [List.map_append, ← List.append_assoc]
    exact h.settlements.append_right _

theorem admitOrWait_sound (h : Sound byteBudget s) (hb : Blocked byteBudget s) (bytes : ℕ)
    (signal : Option ℕ) (deadline : Option ℚ) :
    Sound byteBudget { (admitOrWait byteBudget s bytes signal deadline).1 with
      requests := s.requests + 1 } ∧
      Blocked byteBudget (admitOrWait byteBudget s bytes signal deadline).1 := by
  unfold admitOrWait
  split_ifs with hfree
  · refine ⟨h.reserved hfree.1 hfree.2, fun entry hentry => ?_⟩
    rw [reserve, hfree.1] at hentry
    cases hentry
  · exact ⟨h.refused, hb⟩
  · refine ⟨h.waits bytes signal deadline, fun entry hentry => ?_⟩
    by_cases hempty : s.waiting = []
    · simp only [hempty, List.nil_append, List.head?_cons, Option.mem_some_iff] at hentry
      rw [← hentry]
      exact fun hfits => hfree ⟨hempty, hfits⟩
    · rw [List.head?_append_of_ne_nil _ hempty] at hentry
      exact hb entry hentry

theorem acquire_sound (h : Sound byteBudget s) (hb : Blocked byteBudget s) (bytes : ℕ)
    (signal : Option ℕ) (deadline : Option ℚ) (now : ℚ) :
    Sound byteBudget (acquire byteBudget s bytes signal deadline now).1 ∧
      Blocked byteBudget (acquire byteBudget s bytes signal deadline now).1 := by
  unfold acquire
  split
  · exact ⟨h.refused, hb⟩
  · exact admitOrWait_sound h hb bytes signal deadline

/-! ## Runs -/

theorem step_sound (h : Sound byteBudget s ∧ Blocked byteBudget s) (moment : Moment) :
    Sound byteBudget (step byteBudget s moment) ∧ Blocked byteBudget (step byteBudget s moment) := by
  cases moment with
  | acquire bytes signal deadline now => exact acquire_sound h.1 h.2 bytes signal deadline now
  | release reservation => exact release_sound h.1 h.2 reservation
  | abort signal => exact abort_sound h.1 h.2 signal
  | expire request now => exact expire_sound h.1 h.2 request now
  | clear => exact clear_sound h.1

end Terminay.Client.Admission
