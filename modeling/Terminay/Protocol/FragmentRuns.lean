import Terminay.Lib.Runs
import Terminay.Protocol.ChannelFragments

/-!
# Runs of the reassembler

Whatever messages arrive, the counted bytes are those of the open transfers, and
each open transfer holds the payloads of the fragments of its id that arrived
since it was opened, in order.
-/

namespace Terminay.Protocol
open Script

/-- The accounting of a receiver with a frame limit. -/
structure Balanced (maxFrameBytes : ℕ) (r : Reassembler) : Prop where
  keys : (Entries.keys r.transfers).Nodup
  balance : r.pendingBytes = Entries.total PendingTransfer.bytes r.transfers
  held : ∀ e ∈ r.transfers, e.2.bytes ≤ maxFrameBytes ∧ e.2.bytes = e.2.parts.flatten.length

namespace Balanced

variable {maxFrameBytes : ℕ} {r : Reassembler}

theorem empty (maxFrameBytes : ℕ) : Balanced maxFrameBytes .empty where
  keys := List.nodup_nil
  balance := rfl
  held e he := by cases he

theorem discard (h : Balanced maxFrameBytes r) {id : ℕ} {transfer : PendingTransfer}
    (hget : Entries.get r.transfers id = some transfer) :
    Balanced maxFrameBytes (r.discard id transfer) where
  keys := Entries.keys_delete_nodup h.keys id
  balance := by
    have htotal := Entries.total_delete PendingTransfer.bytes h.keys hget
    have hbalance := h.balance
    simp only [Reassembler.discard]
    omega
  held e he := h.held e (Entries.mem_delete.mp he).1

theorem drop (h : Balanced maxFrameBytes r) (id : ℕ) : Balanced maxFrameBytes (r.drop id) := by
  rw [Reassembler.drop]
  rcases hget : Entries.get r.transfers id with _ | transfer
  · exact h
  · exact h.discard hget

theorem evictFrom {es : List (ℕ × PendingTransfer)} {pending : ℕ}
    (h : Balanced maxFrameBytes ⟨es, pending⟩) :
    Balanced maxFrameBytes (Reassembler.evictFrom es pending) := by
  induction es generalizing pending with
  | nil => exact h
  | cons oldest rest ih =>
    rw [Reassembler.evictFrom]
    split_ifs
    · apply ih
      constructor
      case keys => exact (List.nodup_cons.mp h.keys).2
      case balance =>
        have hbalance := h.balance
        simp only [Entries.total, List.map_cons, List.sum_cons] at hbalance ⊢
        omega
      case held => exact fun e he => h.held e (List.mem_cons_of_mem _ he)
    · exact h

theorem opened (h : Balanced maxFrameBytes r) {id : ℕ} (hget : Entries.get r.transfers id = none)
    (count : ℕ) :
    Balanced maxFrameBytes ⟨Entries.set r.transfers id ⟨count, 0, 0, []⟩, r.pendingBytes⟩ where
  keys := Entries.keys_set_nodup h.keys _ _
  balance := by
    rw [Entries.set_absent hget, Entries.total_append]
    exact h.balance
  held e he := by
    rcases Entries.mem_set.mp he with rfl | ⟨he, -⟩
    · exact ⟨Nat.zero_le _, rfl⟩
    · exact h.held e he

theorem grown (h : Balanced maxFrameBytes r) {id : ℕ} {transfer : PendingTransfer}
    (hget : Entries.get r.transfers id = some transfer) {payload : Bytes}
    (hfits : transfer.bytes + payload.length ≤ maxFrameBytes) (nextIndex : ℕ) :
    Balanced maxFrameBytes
      ⟨Entries.set r.transfers id ⟨transfer.count, nextIndex, transfer.bytes + payload.length,
        transfer.parts ++ [payload]⟩, r.pendingBytes + payload.length⟩ where
  keys := Entries.keys_set_nodup h.keys _ _
  balance := by
    have htotal := Entries.total_set_present PendingTransfer.bytes h.keys hget
      ⟨transfer.count, nextIndex, transfer.bytes + payload.length, transfer.parts ++ [payload]⟩
    have hbalance := h.balance
    simp only at htotal ⊢
    omega
  held e he := by
    rcases Entries.mem_set.mp he with rfl | ⟨he, -⟩
    · have hlength := (h.held _ (Entries.mem_of_get hget)).2
      refine ⟨hfits, ?_⟩
      simp only [List.flatten_append, List.length_append, List.flatten_singleton] at hlength ⊢
      omega
    · exact h.held e he

theorem pending_le (h : Balanced maxFrameBytes r)
    (hfew : r.transfers.length ≤ maxConcurrentFragmentTransfers) :
    r.pendingBytes ≤ maxFrameBytes * maxConcurrentFragmentTransfers := by
  have htotal := Entries.total_le PendingTransfer.bytes fun e he => (h.held e he).1
  have hscale := Nat.mul_le_mul_right maxFrameBytes hfew
  rw [h.balance, Nat.mul_comm]
  exact htotal.trans hscale

end Balanced

theorem drop_transfers (r : Reassembler) (id : ℕ) :
    (r.drop id).transfers = Entries.delete r.transfers id := by
  rw [Reassembler.drop]
  rcases hget : Entries.get r.transfers id with _ | transfer
  · exact (Entries.delete_absent hget).symm
  · rfl

theorem evictFrom_suffix (es : List (ℕ × PendingTransfer)) (pending : ℕ) :
    (Reassembler.evictFrom es pending).transfers <:+ es := by
  induction es generalizing pending with
  | nil => exact List.suffix_refl _
  | cons oldest rest ih =>
    rw [Reassembler.evictFrom]
    split_ifs
    · exact (ih _).trans (List.suffix_cons _ _)
    · exact List.suffix_refl _

theorem evictFrom_room (es : List (ℕ × PendingTransfer)) (pending : ℕ) :
    (Reassembler.evictFrom es pending).transfers.length < maxConcurrentFragmentTransfers := by
  induction es generalizing pending with
  | nil => exact Nat.zero_lt_succ 3
  | cons oldest rest ih =>
    rw [Reassembler.evictFrom]
    split_ifs with hfull
    · exact ih _
    · exact not_le.mp hfull

theorem evictFrom_enough {es : List (ℕ × PendingTransfer)}
    (h : es.length < maxConcurrentFragmentTransfers) (pending : ℕ) :
    Reassembler.evictFrom es pending = ⟨es, pending⟩ := by
  cases es with
  | nil => rfl
  | cons oldest rest =>
    rw [Reassembler.evictFrom]
    exact if_neg (not_le.mpr h)

def fragment? (message : Bytes) : Option Fragment :=
  if isChannelFragment message ∧ versionSupported message ∧ (readFragment message).valid then
    some (readFragment message)
  else none

def fragmentsFor (id : ℕ) (messages : List Bytes) : List Fragment :=
  (messages.filterMap fragment?).filter fun f => f.transferId = id

/-- The fragments of an id are those of indices 0 to `next` of one transfer. -/
structure Collects (id : ℕ) (messages : List Bytes) (count next : ℕ) (parts : List Bytes) :
    Prop where
  indices : (fragmentsFor id messages).map Fragment.index = List.range next
  counts : ∀ f ∈ fragmentsFor id messages, f.count = count
  payloads : (fragmentsFor id messages).map Fragment.payload = parts

def Traced (messages : List Bytes) (e : ℕ × PendingTransfer) : Prop :=
  ∃ before since, messages = before ++ since ∧
    Collects e.1 since e.2.count e.2.nextIndex e.2.parts

theorem fragmentsFor_append (id : ℕ) (xs ys : List Bytes) :
    fragmentsFor id (xs ++ ys) = fragmentsFor id xs ++ fragmentsFor id ys := by
  rw [fragmentsFor, List.filterMap_append, List.filter_append]
  rfl

theorem fragmentsFor_none {message : Bytes} (h : fragment? message = none) (id : ℕ) :
    fragmentsFor id [message] = [] := by
  rw [fragmentsFor, List.filterMap_cons, h]
  rfl

theorem fragmentsFor_own {message : Bytes} {f : Fragment} (h : fragment? message = some f) :
    fragmentsFor f.transferId [message] = [f] := by
  simp [fragmentsFor, h]

theorem fragmentsFor_other {message : Bytes} {f : Fragment} (h : fragment? message = some f)
    {id : ℕ} (hid : id ≠ f.transferId) : fragmentsFor id [message] = [] := by
  simp [fragmentsFor, h, Ne.symm hid]

theorem Traced.later {messages : List Bytes} {e : ℕ × PendingTransfer} (h : Traced messages e)
    {message : Bytes} (hnone : fragmentsFor e.1 [message] = []) :
    Traced (messages ++ [message]) e := by
  obtain ⟨before, since, rfl, hcollects⟩ := h
  have hsame : fragmentsFor e.1 (since ++ [message]) = fragmentsFor e.1 since := by
    rw [fragmentsFor_append, hnone, List.append_nil]
  refine ⟨before, since ++ [message], List.append_assoc _ _ _, ?_⟩
  constructor
  case indices =>
    rw [hsame]
    exact hcollects.indices
  case counts =>
    rw [hsame]
    exact hcollects.counts
  case payloads =>
    rw [hsame]
    exact hcollects.payloads

theorem Collects.append {id count next : ℕ} {since : List Bytes} {parts : List Bytes}
    (h : Collects id since count next parts) {message : Bytes} {f : Fragment}
    (hf : fragment? message = some f) (hid : f.transferId = id) (hcount : f.count = count)
    (hindex : f.index = next) :
    Collects id (since ++ [message]) count (next + 1) (parts ++ [f.payload]) := by
  have hmore : fragmentsFor id (since ++ [message]) = fragmentsFor id since ++ [f] := by
    rw [fragmentsFor_append, ← hid, fragmentsFor_own hf]
  constructor
  case indices =>
    rw [hmore, List.map_append, h.indices, List.range_succ, ← hindex]
    rfl
  case counts =>
    intro g hg
    rw [hmore] at hg
    rcases List.mem_append.mp hg with hg | hg
    · exact h.counts g hg
    · rw [List.mem_singleton.mp hg]
      exact hcount
  case payloads =>
    rw [hmore, List.map_append, h.payloads]
    rfl

theorem collects_nothing (id count : ℕ) : Collects id [] count 0 [] where
  indices := rfl
  counts f hf := by cases hf
  payloads := rfl

/-- What the transfer table looks like once the transfer of a fragment was found or refused. -/
structure Prepared (maxFrameBytes : ℕ) (r : Reassembler) (f : Fragment)
    (found : Option PendingTransfer) (next : Reassembler) : Prop where
  balanced : Balanced maxFrameBytes next
  few : r.transfers.length ≤ maxConcurrentFragmentTransfers →
    next.transfers.length ≤ maxConcurrentFragmentTransfers
  others : ∀ e ∈ next.transfers, e.1 ≠ f.transferId → e ∈ r.transfers
  own : Entries.get next.transfers f.transferId = found
  transfer : ∀ t ∈ found, t = ⟨f.count, 0, 0, []⟩ ∧ f.index = 0 ∨
    Entries.get r.transfers f.transferId = some t ∧ t.count = f.count ∧ t.nextIndex = f.index

namespace Balanced

variable {maxFrameBytes : ℕ} {r : Reassembler}

theorem restart (h : Balanced maxFrameBytes r) (f : Fragment) (hindex : f.index = 0) :
    Prepared maxFrameBytes r f (some ⟨f.count, 0, 0, []⟩) (r.restart f) := by
  let free := r.drop f.transferId
  let room := Reassembler.evictFrom free.transfers free.pendingBytes
  have hroom : Balanced maxFrameBytes room := (h.drop f.transferId).evictFrom
  have hkept : ∀ e ∈ room.transfers, e ∈ r.transfers ∧ e.1 ≠ f.transferId := by
    intro e he
    have hfree : e ∈ free.transfers := (evictFrom_suffix _ _).subset he
    rw [drop_transfers] at hfree
    exact Entries.mem_delete.mp hfree
  have habsent : Entries.get room.transfers f.transferId = none := by
    refine Entries.get_none.mpr fun hmem => ?_
    obtain ⟨e, he, hid⟩ := List.mem_map.mp hmem
    exact (hkept e he).2 hid
  constructor
  case balanced => exact hroom.opened habsent f.count
  case few =>
    intro _
    have hsize := evictFrom_room free.transfers free.pendingBytes
    rw [Reassembler.restart, Entries.set_absent habsent, List.length_append,
      List.length_singleton]
    exact hsize
  case others =>
    intro e he hne
    rcases Entries.mem_set.mp he with rfl | ⟨he, -⟩
    · exact absurd rfl hne
    · exact (hkept e he).1
  case own => exact Entries.get_set_self hroom.keys _ _
  case transfer =>
    intro t ht
    cases ht
    exact .inl ⟨rfl, hindex⟩

theorem transferFor (h : Balanced maxFrameBytes r) (f : Fragment) :
    Prepared maxFrameBytes r f (r.transferFor f).1 (r.transferFor f).2 := by
  rw [Reassembler.transferFor]
  split_ifs with hindex
  · exact h.restart f hindex
  · rcases hget : Entries.get r.transfers f.transferId with _ | t
    · exact ⟨h, id, fun e he _ => he, hget, fun t ht => by cases ht⟩
    · dsimp only
      split_ifs with hnext
      · refine ⟨h, id, fun e he _ => he, hget, ?_⟩
        intro s hs
        cases hs
        exact .inr ⟨hget, hnext.1, hnext.2⟩
      · constructor
        case balanced => exact h.drop f.transferId
        case few =>
          intro hfew
          rw [drop_transfers]
          exact (Entries.length_delete_le _ _).trans hfew
        case others =>
          intro e he _
          rw [drop_transfers] at he
          exact (Entries.mem_delete.mp he).1
        case own =>
          rw [drop_transfers]
          refine Entries.get_none.mpr fun hmem => ?_
          obtain ⟨e, he, hid⟩ := List.mem_map.mp hmem
          exact (Entries.mem_delete.mp he).2 hid
        case transfer => exact fun s hs => by cases hs

theorem push (h : Balanced maxFrameBytes r) {f : Fragment} {transfer : PendingTransfer}
    (hget : Entries.get r.transfers f.transferId = some transfer) :
    Balanced maxFrameBytes (r.push maxFrameBytes f transfer).2 := by
  simp only [Reassembler.push]
  split_ifs with hlimit hmore
  · exact h.discard hget
  · exact h.grown hget (not_lt.mp (not_or.mp hlimit).2) _
  · have hgrown := h.grown hget (not_lt.mp (not_or.mp hlimit).2) (f.index + 1)
    exact hgrown.discard (Entries.get_set_self h.keys _ _)

end Balanced

namespace Reassembler

theorem push_entries {maxFrameBytes : ℕ} {r : Reassembler} {f : Fragment}
    {transfer : PendingTransfer} {e : ℕ × PendingTransfer}
    (he : e ∈ (r.push maxFrameBytes f transfer).2.transfers) :
    e ∈ r.transfers ∧ e.1 ≠ f.transferId ∨ e = (f.transferId, ⟨transfer.count, f.index + 1,
      transfer.bytes + f.payload.length, transfer.parts ++ [f.payload]⟩) := by
  simp only [push] at he
  split_ifs at he
  · exact .inl (Entries.mem_delete.mp he)
  · exact (Entries.mem_set.mp he).symm
  · obtain ⟨he, hne⟩ := Entries.mem_delete.mp he
    rcases Entries.mem_set.mp he with rfl | hold
    · exact absurd rfl hne
    · exact .inl hold

theorem push_length {maxFrameBytes : ℕ} {r : Reassembler} {f : Fragment}
    {transfer : PendingTransfer} (hget : Entries.get r.transfers f.transferId = some transfer) :
    (r.push maxFrameBytes f transfer).2.transfers.length ≤ r.transfers.length := by
  simp only [push]
  split_ifs
  · exact Entries.length_delete_le _ _
  · exact (Entries.length_set_present hget _).le
  · exact (Entries.length_delete_le _ _).trans (Entries.length_set_present hget _).le

theorem push_frame {maxFrameBytes : ℕ} {r : Reassembler} {f : Fragment}
    {transfer : PendingTransfer} {frame : Bytes}
    (h : (r.push maxFrameBytes f transfer).1 = .ok (.frame frame)) :
    transfer.count ≤ f.index + 1 ∧ frame = (transfer.parts ++ [f.payload]).flatten := by
  simp only [push] at h
  split_ifs at h with hlimit hmore
  · cases h
  · cases h
    exact ⟨not_lt.mp hmore, rfl⟩

theorem accept_fragment (maxFrameBytes : ℕ) (r : Reassembler) {message : Bytes} {f : Fragment}
    (hf : fragment? message = some f) :
    r.accept maxFrameBytes message =
      match r.transferFor f with
      | (none, next) => (.error (.range "channel fragment arrived out of order"), next)
      | (some transfer, next) => next.push maxFrameBytes f transfer := by
  rw [fragment?] at hf
  split_ifs at hf with hread
  cases hf
  rw [accept]
  exact (if_neg (by simp [hread.1])).trans
    ((if_neg (by simp [hread.2.1])).trans (if_neg (by simp [hread.2.2])))

theorem accept_other (maxFrameBytes : ℕ) (r : Reassembler) {message : Bytes}
    (hf : fragment? message = none) :
    isChannelFragment message = false ∧
        r.accept maxFrameBytes message = (.ok (.frame message), r) ∨
      ∃ error, r.accept maxFrameBytes message = (.error error, empty) := by
  simp only [accept]
  split_ifs with hplain hversion hvalid
  · exact .inl ⟨hplain, rfl⟩
  · exact .inr ⟨_, rfl⟩
  · exact .inr ⟨_, rfl⟩
  · rw [fragment?, if_pos] at hf
    · cases hf
    · exact ⟨Bool.eq_true_of_not_eq_false hplain, Bool.eq_true_of_not_eq_false hversion,
        Bool.eq_true_of_not_eq_false hvalid⟩

end Reassembler

/-- A receiver after some messages. -/
structure Holds (maxFrameBytes : ℕ) (messages : List Bytes) (r : Reassembler) : Prop where
  balanced : Balanced maxFrameBytes r
  few : r.transfers.length ≤ maxConcurrentFragmentTransfers
  traced : ∀ e ∈ r.transfers, Traced messages e

namespace Holds

variable {maxFrameBytes : ℕ} {messages : List Bytes} {r : Reassembler}

theorem empty (maxFrameBytes : ℕ) (messages : List Bytes) : Holds maxFrameBytes messages .empty where
  balanced := Balanced.empty maxFrameBytes
  few := Nat.zero_le _
  traced e he := by cases he

theorem collected (h : Holds maxFrameBytes messages r) {f : Fragment} {t : PendingTransfer}
    (ht : t = ⟨f.count, 0, 0, []⟩ ∧ f.index = 0 ∨
      Entries.get r.transfers f.transferId = some t ∧ t.count = f.count ∧ t.nextIndex = f.index) :
    ∃ before since, messages = before ++ since ∧
      Collects f.transferId since f.count f.index t.parts := by
  rcases ht with ⟨rfl, hindex⟩ | ⟨hget, hcount, hindex⟩
  · refine ⟨messages, [], (List.append_nil _).symm, ?_⟩
    rw [hindex]
    exact collects_nothing _ _
  · obtain ⟨before, since, hsplit, hcollects⟩ := h.traced _ (Entries.mem_of_get hget)
    rw [hcount, hindex] at hcollects
    exact ⟨before, since, hsplit, hcollects⟩

theorem accept (h : Holds maxFrameBytes messages r) (message : Bytes) :
    Holds maxFrameBytes (messages ++ [message]) (r.accept maxFrameBytes message).2 := by
  rcases hf : fragment? message with _ | f
  · rcases r.accept_other maxFrameBytes hf with ⟨-, heq⟩ | ⟨error, heq⟩
    · rw [heq]
      exact ⟨h.balanced, h.few, fun e he => (h.traced e he).later (fragmentsFor_none hf e.1)⟩
    · rw [heq]
      exact empty maxFrameBytes _
  · rw [r.accept_fragment maxFrameBytes hf]
    have hprepared := h.balanced.transferFor f
    have hother : ∀ e ∈ r.transfers, e.1 ≠ f.transferId → Traced (messages ++ [message]) e :=
      fun e he hne => (h.traced e he).later (fragmentsFor_other hf hne)
    rcases hfound : r.transferFor f with ⟨_ | t, next⟩
    · rw [hfound] at hprepared
      refine ⟨hprepared.balanced, hprepared.few h.few, ?_⟩
      intro e he
      have hne : e.1 ≠ f.transferId := fun hid =>
        Entries.get_none.mp hprepared.own (hid ▸ Entries.mem_keys (v := e.2) he)
      exact hother e (hprepared.others e he hne) hne
    · rw [hfound] at hprepared
      have hown : Entries.get next.transfers f.transferId = some t := hprepared.own
      constructor
      case balanced => exact hprepared.balanced.push hown
      case few => exact (Reassembler.push_length hown).trans (hprepared.few h.few)
      case traced =>
        intro e he
        rcases Reassembler.push_entries he with ⟨he, hne⟩ | rfl
        · exact hother e (hprepared.others e he hne) hne
        · have ht := hprepared.transfer t rfl
          have hcount : t.count = f.count := by
            rcases ht with ⟨rfl, -⟩ | ⟨-, hcount, -⟩
            · rfl
            · exact hcount
          obtain ⟨before, since, hsplit, hcollects⟩ := h.collected ht
          refine ⟨before, since ++ [message], ?_, ?_⟩
          · rw [hsplit, List.append_assoc]
          · rw [hcount]
            exact hcollects.append hf rfl rfl rfl

theorem assembled (h : Holds maxFrameBytes messages r) {message frame : Bytes}
    (hmessage : isChannelFragment message = true)
    (haccept : (r.accept maxFrameBytes message).1 = .ok (.frame frame)) :
    ∃ id count before since parts, messages = before ++ since ∧
      Collects id (since ++ [message]) count count parts ∧ frame = parts.flatten := by
  rcases hf : fragment? message with _ | f
  · rcases r.accept_other maxFrameBytes hf with ⟨hplain, -⟩ | ⟨error, heq⟩
    · rw [hmessage] at hplain
      cases hplain
    · rw [heq] at haccept
      cases haccept
  · rw [r.accept_fragment maxFrameBytes hf] at haccept
    have hprepared := h.balanced.transferFor f
    rcases hfound : r.transferFor f with ⟨_ | t, next⟩
    · rw [hfound] at haccept
      cases haccept
    · rw [hfound] at haccept hprepared
      obtain ⟨hlast, hframe⟩ := Reassembler.push_frame haccept
      have ht := hprepared.transfer t rfl
      obtain ⟨before, since, hsplit, hcollects⟩ := h.collected ht
      have hcount : t.count = f.count := by
        rcases ht with ⟨rfl, -⟩ | ⟨-, hcount, -⟩
        · rfl
        · exact hcount
      have hvalid : f.index < f.count := by
        rw [fragment?] at hf
        split_ifs at hf with hread
        cases hf
        have hvalid := hread.2.2
        simp only [Fragment.valid, decide_eq_true_eq] at hvalid
        exact hvalid.2.1
      have hnext : f.index + 1 = f.count := by omega
      have hmore := hcollects.append hf rfl rfl rfl
      rw [hnext] at hmore
      exact ⟨f.transferId, f.count, before, since, _, hsplit, hmore, hframe⟩

end Holds

def received (maxFrameBytes : ℕ) (messages : List Bytes) : Reassembler :=
  Runs.after (fun r message => (r.accept maxFrameBytes message).2) .empty messages

theorem received_append (maxFrameBytes : ℕ) (messages : List Bytes) (message : Bytes) :
    received maxFrameBytes (messages ++ [message]) =
      ((received maxFrameBytes messages).accept maxFrameBytes message).2 := by
  rw [received, Runs.after_append]
  rfl

theorem received_holds (maxFrameBytes : ℕ) (messages : List Bytes) :
    Holds maxFrameBytes messages (received maxFrameBytes messages) := by
  induction messages using List.reverseRecOn with
  | nil => exact Holds.empty maxFrameBytes []
  | append_singleton messages message ih =>
    rw [received_append]
    exact ih.accept message

end Terminay.Protocol
