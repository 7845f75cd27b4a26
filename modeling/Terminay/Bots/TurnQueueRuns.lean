import Terminay.Lib.Lists
import Terminay.Bots.TurnQueue

/-!
# Runs of the turn queue

What a lane keeps over every order of calls, completions and failures: the limits on
what is active and what waits, one account of every accepted turn, work that starts in
arrival order, and no turn left waiting that could start.
-/

namespace Terminay.Bots
open Script

variable {l : Lane} {item : BotQueuedTurn}

def CouldStart (l : Lane) (item : BotQueuedTurn) : Prop :=
  l.work < 4 ∨ l.coordination < 1 ∧ item.origin = .chat

instance : Decidable (CouldStart l item) := inferInstanceAs (Decidable (_ ∨ _ ∧ _))

def ids (items : List BotQueuedTurn) : List Str := items.map BotQueuedTurn.id

def workIds (items : List BotQueuedTurn) : List Str :=
  ids (items.filter fun item => !item.coordinationOnly)

structure Accounts (l : Lane) : Prop where
  waiting : l.waiting.length ≤ 20
  sessions : (l.waiting.map BotQueuedTurn.sessionId).Nodup
  distinct : l.accepted.Nodup
  accounted : l.accepted.Perm (ids l.started ++ l.cancelled ++ ids l.waiting)
  running : (ids l.started).Perm (Entries.keys l.active ++ l.ended)
  keyed : ∀ e ∈ l.active, e.1 = e.2.id
  arrivals : (workIds l.started ++ ids l.waiting).Sublist l.accepted

structure Kept (l : Lane) : Prop extends Accounts l where
  work : l.work ≤ 4
  coordination : l.coordination ≤ 1

def Dispatched (l : Lane) : Prop :=
  l.stopped = false → l.reservation = none → ∀ item ∈ l.waiting, ¬ CouldStart l item

structure Orderly (l : Lane) : Prop extends Kept l where
  dispatched : Dispatched l

def TurnInput.Fresh (l : Lane) : TurnInput → Prop
  | .enqueue item => item.id ∉ l.accepted
  | _ => True

instance : (input : TurnInput) → Decidable (input.Fresh l)
  | .enqueue item => inferInstanceAs (Decidable (item.id ∉ l.accepted))
  | .reservePromotion _ _ | .release _ | .promote _ _ => .isTrue trivial
  | .cancel _ | .disableTrigger _ | .pause | .block | .unblock _ => .isTrue trivial
  | .failed _ | .finished _ => .isTrue trivial

theorem work_total (l : Lane) :
    l.work = Entries.total (fun item => if item.coordinationOnly then 0 else 1) l.active := by
  rw [Lane.work]
  induction l.active with
  | nil => rfl
  | cons e es ih =>
    simp only [Entries.total, List.map_cons, List.sum_cons] at ih ⊢
    cases hc : e.2.coordinationOnly
    · simp only [List.filter_cons, hc, Bool.not_false, if_true, List.length_cons, ih]
      simp [Nat.add_comm]
    · simp [hc, ih]

theorem coordination_total (l : Lane) :
    l.coordination =
      Entries.total (fun item => if item.coordinationOnly then 1 else 0) l.active := by
  rw [Lane.coordination]
  induction l.active with
  | nil => rfl
  | cons e es ih =>
    simp only [Entries.total, List.map_cons, List.sum_cons] at ih ⊢
    cases hc : e.2.coordinationOnly
    · simp [hc, ih]
    · simp only [List.filter_cons, hc, if_true, List.length_cons, ih]
      simp [Nat.add_comm]

theorem Accounts.started_nodup (h : Accounts l) : (ids l.started).Nodup := by
  have hall := h.accounted.nodup_iff.mp h.distinct
  exact (List.nodup_append.mp (List.nodup_append.mp hall).1).1

theorem Accounts.keys_nodup (h : Accounts l) : (Entries.keys l.active).Nodup :=
  (List.nodup_append.mp (h.running.nodup_iff.mp h.started_nodup)).1

theorem Accounts.waiting_unstarted (h : Accounts l) (hitem : item ∈ l.waiting) :
    item.id ∉ ids l.started := by
  have hall := h.accounted.nodup_iff.mp h.distinct
  intro hstarted
  have hleft := List.mem_append_left l.cancelled hstarted
  exact (List.nodup_append.mp hall).2.2 _ hleft _ (List.mem_map_of_mem hitem) rfl

theorem Accounts.waiting_inactive (h : Accounts l) (hitem : item ∈ l.waiting) :
    Entries.get l.active item.id = none := by
  apply Entries.get_none.mpr
  intro hkey
  exact h.waiting_unstarted hitem (h.running.mem_iff.mpr (List.mem_append_left _ hkey))

theorem next_cases {index : ℕ} (h : l.next = some index) :
    l.work < 4 ∧ index = 0 ∨
      4 ≤ l.work ∧ l.coordination = 0 ∧
        ∃ item, l.waiting[index]? = some item ∧ item.origin = .chat := by
  unfold Lane.next at h
  split_ifs at h with hwork hcoordination hempty
  · obtain ⟨hbound, hchat, -⟩ := List.findIdx?_eq_some_iff_getElem.mp h
    have horigin := of_decide_eq_true hchat
    exact .inr ⟨hwork, by omega, l.waiting[index], List.getElem?_eq_getElem hbound, horigin⟩
  · cases h
    exact .inl ⟨by omega, rfl⟩

theorem next_none (h : l.next = none) : ∀ item ∈ l.waiting, ¬ CouldStart l item := by
  intro item hitem hcould
  unfold Lane.next at h
  split_ifs at h with hwork hcoordination hempty
  · rcases hcould with hless | ⟨hless, -⟩
    · omega
    · omega
  · have hno := List.findIdx?_eq_none_iff.mp h item hitem
    rcases hcould with hless | ⟨-, hchat⟩
    · omega
    · simp [hchat] at hno
  · rw [hempty] at hitem
    cases hitem

theorem ids_split {items : List BotQueuedTurn} {index : ℕ} (h : items[index]? = some item) :
    (ids items).Perm (item.id :: ids (items.eraseIdx index)) := by
  obtain ⟨hbound, rfl⟩ := List.getElem?_eq_some_iff.mp h
  exact (List.getElem_cons_eraseIdx_perm hbound).symm.map BotQueuedTurn.id

theorem ids_append (xs ys : List BotQueuedTurn) : ids (xs ++ ys) = ids xs ++ ids ys :=
  List.map_append

theorem Accounts.start {index : ℕ} (h : Accounts l) (hnext : l.next = some index)
    (hitem : l.waiting[index]? = some item) : Accounts (l.start index item) := by
  have hmem := List.mem_of_getElem? hitem
  have hsplit := ids_split hitem
  have hactive := Entries.set_absent (h.waiting_inactive hmem)
    { item with coordinationOnly := decide (4 ≤ l.work) }
  constructor
  · have hlength := List.length_eraseIdx_le l.waiting index
    exact hlength.trans h.waiting
  · exact h.sessions.sublist ((List.eraseIdx_sublist _ _).map _)
  · exact h.distinct
  · refine h.accounted.trans (List.perm_iff_count.mpr fun a => ?_)
    have hcount := hsplit.count_eq a
    simp only [Lane.start, ids_append, List.count_append, List.count_cons] at hcount ⊢
    simp only [ids, List.map_cons, List.map_nil, List.count_cons, List.count_nil] at hcount ⊢
    omega
  · refine List.perm_iff_count.mpr fun a => ?_
    have hcount := h.running.count_eq a
    simp only [Lane.start, hactive, ids_append, Entries.keys, List.map_append,
      List.count_append] at hcount ⊢
    simp only [ids, List.map_cons, List.map_nil, List.count_cons, List.count_nil] at hcount ⊢
    omega
  · intro e he
    rcases Entries.mem_set.mp he with rfl | ⟨he, -⟩
    · rfl
    · exact h.keyed e he
  · rcases next_cases hnext with ⟨hless, rfl⟩ | ⟨hfull, -, -⟩
    · have hnot : ¬ 4 ≤ l.work := by omega
      rcases hwaiting : l.waiting with _ | ⟨first, rest⟩
      · rw [hwaiting] at hmem
        cases hmem
      · have harrivals := h.arrivals
        rw [hwaiting] at hitem harrivals
        cases hitem
        simpa [Lane.start, workIds, ids, hnot, hwaiting] using harrivals
    · have hless : (ids (l.waiting.eraseIdx index)).Sublist (ids l.waiting) :=
        (List.eraseIdx_sublist _ _).map _
      have hshort := ((List.Sublist.refl (workIds l.started)).append hless).trans h.arrivals
      simpa [Lane.start, workIds, ids, hfull] using hshort

theorem Kept.start {index : ℕ} (h : Kept l) (hnext : l.next = some index)
    (hitem : l.waiting[index]? = some item) : Kept (l.start index item) := by
  have hactive := Entries.set_absent (h.waiting_inactive (List.mem_of_getElem? hitem))
    { item with coordinationOnly := decide (4 ≤ l.work) }
  have hwork := work_total l
  have hcoordination := coordination_total l
  have hfour := h.work
  have hone := h.coordination
  refine ⟨h.toAccounts.start hnext hitem, ?_, ?_⟩
  · rw [work_total, Lane.start, hactive, Entries.total_append]
    rcases next_cases hnext with ⟨hless, -⟩ | ⟨hfull, -, -⟩
    · have hnot : ¬ 4 ≤ l.work := by omega
      simp only [Entries.total, hnot, List.map_cons, List.sum_cons] at hwork ⊢
      simp at hwork ⊢
      omega
    · simp [Entries.total, hfull] at hwork ⊢
      omega
  · rw [coordination_total, Lane.start, hactive, Entries.total_append]
    rcases next_cases hnext with ⟨hless, -⟩ | ⟨hfull, hnone, -⟩
    · have hnot : ¬ 4 ≤ l.work := by omega
      simp [Entries.total, hnot] at hcoordination ⊢
      omega
    · simp [Entries.total, hfull] at hcoordination ⊢
      omega

theorem start_length {index : ℕ} (hitem : l.waiting[index]? = some item) :
    (l.start index item).waiting.length + 1 = l.waiting.length := by
  obtain ⟨hbound, -⟩ := List.getElem?_eq_some_iff.mp hitem
  have hlength := List.length_eraseIdx_of_lt hbound
  simp only [Lane.start]
  omega

theorem dispatchLoop_kept (n : ℕ) (h : Kept l) : Kept (Lane.dispatchLoop n l) := by
  induction n generalizing l with
  | zero => exact h
  | succ n ih =>
    rcases hnext : l.next with _ | index
    · simpa [Lane.dispatchLoop, hnext] using h
    · rcases hitem : l.waiting[index]? with _ | item
      · simpa [Lane.dispatchLoop, hnext, hitem] using h
      · simpa [Lane.dispatchLoop, hnext, hitem] using ih (h.start hnext hitem)

/-- The loop ends with nothing left that could start. -/
theorem dispatchLoop_settled (n : ℕ) (hn : l.waiting.length ≤ n) :
    ∀ item ∈ (Lane.dispatchLoop n l).waiting, ¬ CouldStart (Lane.dispatchLoop n l) item := by
  induction n generalizing l with
  | zero =>
    have hempty := List.eq_nil_of_length_eq_zero (Nat.le_zero.mp hn)
    intro item hitem
    rw [Lane.dispatchLoop, hempty] at hitem
    cases hitem
  | succ n ih =>
    rcases hnext : l.next with _ | index
    · simpa [Lane.dispatchLoop, hnext] using next_none hnext
    · rcases hitem : l.waiting[index]? with _ | item
      · rcases next_cases hnext with ⟨-, rfl⟩ | ⟨-, -, item, hsome, -⟩
        · have hlength := List.getElem?_eq_none_iff.mp hitem
          have hempty := List.eq_nil_of_length_eq_zero (Nat.le_zero.mp hlength)
          simp [Lane.dispatchLoop, hnext, hempty]
        · rw [hitem] at hsome
          cases hsome
      · have hlength := start_length hitem
        have hrest := ih (l := l.start index item) (by omega)
        simpa [Lane.dispatchLoop, hnext, hitem] using hrest

theorem Kept.dispatch (h : Kept l) : Orderly l.dispatch := by
  unfold Lane.dispatch
  split_ifs with hheld
  · refine ⟨h, fun hopen hfree => ?_⟩
    rcases hheld with hstopped | hreserved
    · rw [hopen] at hstopped
      cases hstopped
    · rw [hfree] at hreserved
      cases hreserved
  · exact ⟨dispatchLoop_kept _ h, fun _ _ => dispatchLoop_settled _ le_rfl⟩

theorem Orderly.enqueue (h : Orderly l) (hfresh : item.id ∉ l.accepted) :
    Orderly ((l.enqueue item).toOption.getD l) := by
  unfold Lane.enqueue
  split_ifs with hbusy
  · exact h
  · simp only [not_or, not_le, List.any_eq_true, decide_eq_true_eq, not_exists, not_and] at hbusy
    obtain ⟨-, hroom, hsession⟩ := hbusy
    apply Kept.dispatch
    refine ⟨?_, h.work, h.coordination⟩
    constructor
    · simp only [List.length_append, List.length_singleton]
      omega
    · rw [List.map_append]
      refine List.nodup_append.mpr ⟨h.sessions, List.nodup_singleton _, ?_⟩
      intro session hwaits other hother heq
      obtain ⟨waiting, hwaiting, rfl⟩ := List.mem_map.mp hwaits
      rw [List.mem_singleton.mp hother] at heq
      exact hsession waiting hwaiting heq
    · refine List.nodup_append.mpr ⟨h.distinct, List.nodup_singleton _, ?_⟩
      intro id hid other hother heq
      rw [heq, List.mem_singleton.mp hother] at hid
      exact hfresh hid
    · have hmore := h.accounted.append_right [item.id]
      simpa [ids_append, ids, List.append_assoc] using hmore
    · exact h.running
    · exact h.keyed
    · have hmore := h.arrivals.append (List.Sublist.refl [item.id])
      simpa [ids_append, ids, List.append_assoc] using hmore

theorem find_mem {session : Str} (h : l.find session = some item) :
    ∃ e ∈ l.active, e.2 = item ∧ item.sessionId = session := by
  obtain ⟨e, he, rfl⟩ := Option.map_eq_some_iff.mp h
  have hsession := List.find?_some he
  exact ⟨e, List.mem_of_find?_eq_some he, rfl, by simpa using hsession⟩

theorem Accounts.get_found {session : Str} (h : Accounts l) (hfind : l.find session = some item) :
    Entries.get l.active item.id = some item := by
  obtain ⟨e, he, rfl, -⟩ := find_mem hfind
  have hkey := h.keyed e he
  exact Entries.get_of_mem h.keys_nodup (hkey ▸ he)

theorem setCoordination_counts (hn : (Entries.keys l.active).Nodup)
    (hget : Entries.get l.active item.id = some item) (coordinationOnly : Bool) :
    (l.setCoordination item coordinationOnly).work + (if item.coordinationOnly then 0 else 1) =
        l.work + (if coordinationOnly then 0 else 1) ∧
      (l.setCoordination item coordinationOnly).coordination +
          (if item.coordinationOnly then 1 else 0) =
        l.coordination + (if coordinationOnly then 1 else 0) := by
  simp only [work_total, coordination_total, Lane.setCoordination]
  exact ⟨Entries.total_set_present _ hn hget _, Entries.total_set_present _ hn hget _⟩

theorem Accounts.setCoordination {coordinationOnly : Bool} (h : Accounts l)
    (hget : Entries.get l.active item.id = some item) :
    Accounts (l.setCoordination item coordinationOnly) := by
  refine { h with running := ?_, keyed := ?_ }
  · simp only [Lane.setCoordination, Entries.keys_set_present hget]
    exact h.running
  · intro e he
    rcases Entries.mem_set.mp he with rfl | ⟨he, -⟩
    · rfl
    · exact h.keyed e he

theorem retire_get {session : Str} (retiredId : Option Str) (h : Accounts l)
    (hfind : l.find session = some item) (hcoordination : item.coordinationOnly = true) :
    Entries.get (l.retire session retiredId).active item.id = some item := by
  have hget := h.get_found hfind
  unfold Lane.retire
  rcases hretired : l.retired session retiredId with _ | other
  · exact hget
  · have hother : Entries.get l.active other.id = some other := by
      unfold Lane.retired at hretired
      split_ifs at hretired
      obtain ⟨id, -, hid⟩ := Option.bind_eq_some_iff.mp hretired
      exact h.get_found hid
    simp only [Lane.setCoordination]
    rcases eq_or_ne item.id other.id with heq | hne
    · rw [heq, hother] at hget
      cases hget
      rw [Entries.get_set_self h.keys_nodup, ← hcoordination]
    · rw [Entries.get_set_other h.keys_nodup hne]
      exact hget

/-- Replacing a turn keeps the lane, or it makes room for one more work execution. -/
theorem retire_room (session : Str) (retiredId : Option Str) (h : Kept l) :
    Accounts (l.retire session retiredId) ∧
      (Kept (l.retire session retiredId) ∨
        (l.retire session retiredId).work < 4 ∧ (l.retire session retiredId).coordination ≤ 2) := by
  unfold Lane.retire
  rcases hretired : l.retired session retiredId with _ | other
  · exact ⟨h.toAccounts, .inl h⟩
  · have hother : Entries.get l.active other.id = some other := by
      unfold Lane.retired at hretired
      split_ifs at hretired
      obtain ⟨id, -, hid⟩ := Option.bind_eq_some_iff.mp hretired
      exact h.get_found hid
    have hcounts := setCoordination_counts h.keys_nodup hother true
    have haccounts : Accounts (l.setCoordination other true) := h.toAccounts.setCoordination hother
    have hfour := h.work
    have hone := h.coordination
    refine ⟨haccounts, ?_⟩
    cases hclass : other.coordinationOnly
    · simp only [hclass] at hcounts
      right
      simp at hcounts ⊢
      omega
    · simp only [hclass] at hcounts
      refine .inl ⟨haccounts, ?_, ?_⟩
      · simp at hcounts ⊢
        omega
      · simp at hcounts ⊢
        omega

theorem retire_unreserved (session : Str) (retiredId : Option Str)
    (h : (l.retire session retiredId).reservation = none) : l.retire session retiredId = l := by
  unfold Lane.retire at h ⊢
  rcases hretired : l.retired session retiredId with _ | other
  · rfl
  · rw [hretired] at h
    have hfree : l.reservation = none := h
    rw [Lane.retired, hfree] at hretired
    cases hretired

theorem Kept.promote (session : Str) (retiredId : Option Str) (h : Kept l) :
    Kept (l.promote session retiredId).2 := by
  unfold Lane.promote
  rcases hfind : l.find session with _ | item
  · exact h
  · simp only
    split_ifs with hclass hfull
    · exact h
    · rcases (retire_room session retiredId h).2 with hkept | ⟨hroom, -⟩
      · exact hkept
      · omega
    · have hcoordination : item.coordinationOnly = true := by simpa using hclass
      have hget := retire_get retiredId h.toAccounts hfind hcoordination
      obtain ⟨haccounts, hroom⟩ := retire_room session retiredId h
      have hcounts := setCoordination_counts haccounts.keys_nodup hget false
      simp only [hcoordination] at hcounts
      have htwo : (l.retire session retiredId).coordination ≤ 2 := by
        rcases hroom with hkept | ⟨-, htwo⟩
        · exact hkept.coordination.trans (by omega)
        · exact htwo
      refine ⟨haccounts.setCoordination hget, ?_, ?_⟩
      · simp at hcounts ⊢
        omega
      · simp at hcounts ⊢
        omega

theorem Dispatched.promote (session : Str) (retiredId : Option Str) (h : Dispatched l) :
    Dispatched (l.promote session retiredId).2 := by
  unfold Lane.promote
  rcases hfind : l.find session with _ | item
  · exact h
  · simp only
    split_ifs with hclass hfull
    · exact h
    · intro hopen hfree
      have hsame := retire_unreserved session retiredId hfree
      simp only [hsame] at hopen hfree ⊢
      exact h hopen hfree
    · intro hopen hfree
      have hsame := retire_unreserved session retiredId hfree
      simp only [hsame, not_le] at hopen hfree hfull ⊢
      intro waiting hwaiting
      exact absurd (.inl hfull) (h hopen hfree waiting hwaiting)

theorem Orderly.withdraw (id : Str) (h : Orderly l) : Orderly (l.withdraw id) := by
  unfold Lane.withdraw
  split
  · exact h
  · rename_i index hindex
    obtain ⟨hbound, hid, -⟩ := List.findIdx?_eq_some_iff_getElem.mp hindex
    have hsplit := ids_split (List.getElem?_eq_getElem hbound)
    have hless := List.eraseIdx_sublist l.waiting index
    have hid : l.waiting[index].id = id := of_decide_eq_true hid
    refine ⟨⟨?_, h.work, h.coordination⟩, ?_⟩
    · constructor
      · exact (hless.length_le).trans h.waiting
      · exact h.sessions.sublist (hless.map _)
      · exact h.distinct
      · refine h.accounted.trans (List.perm_iff_count.mpr fun a => ?_)
        have hcount := hsplit.count_eq a
        simp only [hid, List.count_append, List.count_cons, List.count_nil] at hcount ⊢
        omega
      · exact h.running
      · exact h.keyed
      · exact ((List.Sublist.refl _).append (hless.map _)).trans h.arrivals
    · intro hopen hfree waiting hwaiting
      exact h.dispatched hopen hfree waiting (hless.subset hwaiting)

theorem Orderly.cancel (id : Str) (h : Orderly l) : Orderly ((l.cancel id).toOption.getD l) := by
  unfold Lane.cancel
  split_ifs
  · exact h.withdraw id
  · exact h

theorem Orderly.disableTrigger (triggerId : Str) (h : Orderly l) :
    Orderly (l.disableTrigger triggerId) :=
  Runs.invariant (fun _ id hl => hl.withdraw id) h _

theorem Orderly.block (h : Orderly l) : Orderly l.block := by
  refine ⟨⟨?_, h.work, h.coordination⟩, fun hopen => by cases hopen⟩
  constructor
  · exact Nat.zero_le 20
  · exact List.nodup_nil
  · exact h.distinct
  · simpa [Lane.block, ids] using h.accounted
  · exact h.running
  · exact h.keyed
  · have hless := (List.sublist_append_left (workIds l.started) (ids l.waiting)).trans h.arrivals
    simpa [Lane.block, ids] using hless

theorem Orderly.unblock (reset : Bool) (h : Orderly l) :
    Orderly ((l.unblock reset).toOption.getD l) := by
  unfold Lane.unblock
  split_ifs
  · exact h
  · apply Kept.dispatch
    exact ⟨{ h.toAccounts with }, h.work, h.coordination⟩
  · apply Kept.dispatch
    exact ⟨{ h.toAccounts with }, h.work, h.coordination⟩

theorem Orderly.stop (failed : Bool) (h : Orderly l) :
    Orderly { l with stopped := true, failed := failed } :=
  ⟨⟨{ h.toAccounts with }, h.work, h.coordination⟩, fun hopen => by cases hopen⟩

theorem Orderly.reservePromotion (source target : Str) (h : Orderly l) :
    Orderly (l.reservePromotion source target) := by
  unfold Lane.reservePromotion
  split_ifs
  · exact ⟨⟨{ h.toAccounts with }, h.work, h.coordination⟩, fun _ hfree => by cases hfree⟩
  · exact h

theorem Orderly.release (source : Str) (h : Orderly l) : Orderly (l.release source) := by
  apply Kept.dispatch
  exact ⟨{ h.toAccounts with }, h.work, h.coordination⟩

theorem Orderly.finish (id : Str) (h : Orderly l) : Orderly (l.finish id) := by
  unfold Lane.finish
  split_ifs with hactive
  · obtain ⟨item, hitem⟩ := Option.isSome_iff_exists.mp hactive
    apply Kept.dispatch
    have hwork := Entries.total_delete (fun item => if item.coordinationOnly then 0 else 1)
      h.keys_nodup hitem
    have hcoordination := Entries.total_delete (fun item => if item.coordinationOnly then 1 else 0)
      h.keys_nodup hitem
    rw [← work_total] at hwork
    rw [← coordination_total] at hcoordination
    have hfour := h.work
    have hone := h.coordination
    refine ⟨{ h.toAccounts with running := ?_, keyed := ?_ }, ?_, ?_⟩
    · refine h.running.trans (List.perm_iff_count.mpr fun a => ?_)
      have hcount := (Entries.keys_delete_perm h.keys_nodup hitem).count_eq a
      simp only [List.count_append, List.count_cons, List.count_nil] at hcount ⊢
      omega
    · exact fun e he => h.keyed e (Entries.mem_delete.mp he).1
    · rw [work_total]
      simp only
      omega
    · rw [coordination_total]
      simp only
      omega
  · exact h

theorem Orderly.step {input : TurnInput} (h : Orderly l) (hfresh : input.Fresh l) :
    Orderly (l.step input) := by
  cases input with
  | enqueue item => exact h.enqueue hfresh
  | reservePromotion source target => exact h.reservePromotion source target
  | release source => exact h.release source
  | promote session retiredId =>
    exact ⟨h.toKept.promote session retiredId, h.dispatched.promote session retiredId⟩
  | cancel id => exact h.cancel id
  | disableTrigger triggerId => exact h.disableTrigger triggerId
  | pause => exact h.stop l.failed
  | block => exact h.block
  | unblock reset => exact h.unblock reset
  | failed id =>
    simp only [Lane.step, Lane.fail]
    split_ifs
    · exact h.stop true
    · exact h
  | finished id => exact h.finish id

section Queue

variable {q : BotTurnQueue}

theorem created_orderly : Orderly Lane.created := by
  refine ⟨⟨?_, by decide, by decide⟩, fun _ _ item hitem => by cases hitem⟩
  constructor <;> simp [Lane.created, ids, workIds, Entries.keys]

theorem lane_orderly (h : ∀ e ∈ q.lanes, Orderly e.2) (botId : Str) : Orderly (q.lane botId) := by
  unfold BotTurnQueue.lane
  rcases hget : Entries.get q.lanes botId with _ | l
  · exact created_orderly
  · exact h _ (Entries.mem_of_get hget)

def FreshIds (q : BotTurnQueue) (input : Str × TurnInput) : Prop :=
  input.2.Fresh (q.lane input.1)

instance {input : Str × TurnInput} : Decidable (FreshIds q input) :=
  inferInstanceAs (Decidable (input.2.Fresh (q.lane input.1)))

theorem step_orderly {input : Str × TurnInput} (h : ∀ e ∈ q.lanes, Orderly e.2)
    (hfresh : FreshIds q input) : ∀ e ∈ (q.step input).lanes, Orderly e.2 := by
  intro e he
  rcases Entries.mem_set.mp he with rfl | ⟨he, -⟩
  · exact (lane_orderly h input.1).step hfresh
  · exact h e he

def promotionRun : List (Str × TurnInput) :=
  let turn (n : UInt16) (origin : BotSessionOrigin) : BotQueuedTurn :=
    ⟨[n], [n], origin, [], n.toNat, false⟩
  let botId : Str := [98]
  [(botId, .enqueue (turn 1 .chat)), (botId, .enqueue (turn 2 (.trigger [7]))),
    (botId, .enqueue (turn 3 .chat)), (botId, .enqueue (turn 4 .chat)),
    (botId, .enqueue (turn 5 (.trigger [7]))), (botId, .enqueue (turn 6 .chat)),
    (botId, .reservePromotion [6] [2]), (botId, .finished [2]), (botId, .promote [6] (some [2])),
    (botId, .release [6]), (botId, .enqueue (turn 8 .chat)), (botId, .finished [1]),
    (botId, .failed [5]), (botId, .unblock true), (botId, .block)]

end Queue

end Terminay.Bots
