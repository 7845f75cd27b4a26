import Terminay.Lib.Outcome
import Terminay.Protocol.FragmentRuns

/-!
# Interleaved transfers

Frames are sent as the messages of their encodings, interleaved in any way that keeps the messages
of one frame in order.
-/

namespace Terminay.Protocol
open Script Outcome

theorem getUint16_bytes {n : ℕ} (h : n < 2 ^ 16) :
    (UInt8.ofNat (n / 2 ^ 8)).toNat * 2 ^ 8 + (UInt8.ofNat n).toNat = n := by
  simp only [UInt8.toNat_ofNat']
  omega

theorem readFragment_fragmentBytes {id index count : ℕ} (hid : id < 2 ^ 16) (hindex : index < 2 ^ 16)
    (hcount : count < 2 ^ 16) (payload : Bytes) :
    readFragment (fragmentBytes id index count payload) = ⟨id, index, count, payload⟩ := by
  have hread : readFragment (fragmentBytes id index count payload) =
      ⟨(UInt8.ofNat (id / 2 ^ 8)).toNat * 2 ^ 8 + (UInt8.ofNat id).toNat,
        (UInt8.ofNat (index / 2 ^ 8)).toNat * 2 ^ 8 + (UInt8.ofNat index).toNat,
        (UInt8.ofNat (count / 2 ^ 8)).toNat * 2 ^ 8 + (UInt8.ofNat count).toNat, payload⟩ := rfl
  rw [hread, getUint16_bytes hid, getUint16_bytes hindex, getUint16_bytes hcount]

theorem fragment?_fragmentBytes {id index count : ℕ} (hid : id < 2 ^ 16) (hcount : count < 2 ^ 16)
    (htwo : 2 ≤ count) (hindex : index < count) {payload : Bytes} (hpayload : payload ≠ []) :
    fragment? (fragmentBytes id index count payload) = some ⟨id, index, count, payload⟩ := by
  have hread := readFragment_fragmentBytes hid (hindex.trans hcount) hcount payload
  have hchannel : isChannelFragment (fragmentBytes id index count payload) = true := by
    have hlength : fragmentHeaderBytes ≤ (fragmentBytes id index count payload).length :=
      Nat.le_add_left 12 payload.length
    exact decide_eq_true ⟨hlength, rfl⟩
  have hvalid : Fragment.valid ⟨id, index, count, payload⟩ = true :=
    decide_eq_true ⟨htwo, hindex, hpayload⟩
  rw [fragment?, hread, if_pos ⟨hchannel, rfl, hvalid⟩]

theorem fragmentCount_bound (length : ℕ) {payloadBytes : ℕ} (hpositive : 0 < payloadBytes) :
    length ≤ fragmentCount length payloadBytes * payloadBytes ∧
      ∀ n < fragmentCount length payloadBytes, n * payloadBytes < length := by
  rw [fragmentCount]
  constructor
  · have hdiv := Nat.div_add_mod (length + payloadBytes - 1) payloadBytes
    have hmod := Nat.mod_lt (length + payloadBytes - 1) hpositive
    rw [Nat.mul_comm] at hdiv
    omega
  · intro n hn
    have hless := (Nat.le_div_iff_mul_le hpositive).mp (Nat.succ_le_of_lt hn)
    rw [Nat.succ_mul] at hless
    omega

theorem payloads_flatten (frame : Bytes) (payloadBytes n : ℕ) :
    ((List.range n).map (fragmentPayload frame payloadBytes)).flatten =
      frame.take (n * payloadBytes) := by
  induction n with
  | zero => rw [Nat.zero_mul, List.take_zero]; rfl
  | succ n ih =>
    rw [List.range_succ, List.map_append, List.flatten_append, ih, List.map_singleton,
      List.flatten_singleton, Nat.succ_mul, List.take_add]
    rfl

section Jobs

/-- A frame to send and the id of its transfer. -/
structure FragmentJob where
  frame : Bytes
  transferId : ℕ
  deriving DecidableEq

variable (maxMessageBytes : ℕ)

namespace FragmentJob

def messages (job : FragmentJob) : List Bytes :=
  match encodeChannelFragments job.frame maxMessageBytes job.transferId with
  | .ok messages => messages
  | .error _ => []

def payloadBytes : ℕ := maxMessageBytes - fragmentHeaderBytes

def count (job : FragmentJob) : ℕ := fragmentCount job.frame.length (payloadBytes maxMessageBytes)

def transfer (job : FragmentJob) (n : ℕ) : PendingTransfer :=
  ⟨job.count maxMessageBytes, n, (job.frame.take (n * payloadBytes maxMessageBytes)).length,
    (List.range n).map (fragmentPayload job.frame (payloadBytes maxMessageBytes))⟩

variable {maxMessageBytes} {job : FragmentJob}

theorem messages_cases
    (h : isOk (encodeChannelFragments job.frame maxMessageBytes job.transferId) = true) :
    job.messages maxMessageBytes = [job.frame] ∨
    job.messages maxMessageBytes =
        fragmentsOf job.frame (payloadBytes maxMessageBytes) job.transferId ∧
      0 < payloadBytes maxMessageBytes ∧ job.transferId < 2 ^ 16 ∧
      2 ≤ job.count maxMessageBytes ∧ job.count maxMessageBytes < 2 ^ 16 := by
  obtain ⟨ms, hms⟩ := isOk_iff.mp h
  have hmessages : job.messages maxMessageBytes = ms := by rw [messages, hms]
  rw [hmessages]
  rw [encodeChannelFragments] at hms
  split_ifs at hms with hempty hsmall hid hfits hmany
  · cases hms
    exact .inl rfl
  · cases hms
    have hpositive : 0 < payloadBytes maxMessageBytes := by
      simp only [payloadBytes, fragmentHeaderBytes, minFragmentPayloadBytes] at hsmall ⊢
      omega
    refine .inr ⟨rfl, hpositive, ?_, ?_, ?_⟩
    · simp only [maxTransferId] at hid
      omega
    · -- One payload is smaller than a message, so one is not enough.
      have hbound := (fragmentCount_bound job.frame.length hpositive).1
      by_contra hless
      have hone : job.count maxMessageBytes ≤ 1 := by omega
      have hscale := Nat.mul_le_mul_right (payloadBytes maxMessageBytes) hone
      rw [count] at hscale
      simp only [payloadBytes] at hbound hscale
      omega
    · simp only [maxFragmentCount, not_lt] at hmany
      rw [count, payloadBytes]
      omega

/-- The next message of a frame cut into fragments, read by the receiver. -/
theorem next_fragment (hmessages : job.messages maxMessageBytes =
      fragmentsOf job.frame (payloadBytes maxMessageBytes) job.transferId)
    (hpositive : 0 < payloadBytes maxMessageBytes) (hid : job.transferId < 2 ^ 16)
    (htwo : 2 ≤ job.count maxMessageBytes) (hcount : job.count maxMessageBytes < 2 ^ 16) {n : ℕ}
    {message : Bytes} (hnext : (job.messages maxMessageBytes)[n]? = some message) :
    n < job.count maxMessageBytes ∧ fragment? message = some ⟨job.transferId, n,
      job.count maxMessageBytes, fragmentPayload job.frame (payloadBytes maxMessageBytes) n⟩ := by
  rw [hmessages, fragmentsOf, List.getElem?_map] at hnext
  obtain ⟨index, hindex, rfl⟩ := Option.map_eq_some_iff.mp hnext
  obtain ⟨hn, hindex⟩ := List.getElem?_eq_some_iff.mp hindex
  rw [List.getElem_range] at hindex
  subst hindex
  rw [List.length_range] at hn
  have hstart := (fragmentCount_bound job.frame.length hpositive).2 n hn
  have hpayload : fragmentPayload job.frame (payloadBytes maxMessageBytes) n ≠ [] := by
    refine List.ne_nil_of_length_pos ?_
    rw [fragmentPayload, List.length_take, List.length_drop]
    omega
  exact ⟨hn, fragment?_fragmentBytes hid hcount htwo hn hpayload⟩

theorem transfer_succ (maxMessageBytes : ℕ) (job : FragmentJob) (n : ℕ) :
    (job.transfer maxMessageBytes n).bytes +
        (fragmentPayload job.frame (payloadBytes maxMessageBytes) n).length =
      (job.transfer maxMessageBytes (n + 1)).bytes ∧
    (job.transfer maxMessageBytes n).parts ++
        [fragmentPayload job.frame (payloadBytes maxMessageBytes) n] =
      (job.transfer maxMessageBytes (n + 1)).parts := by
  constructor
  · simp only [transfer]
    rw [Nat.succ_mul, List.take_add, List.length_append]
    rfl
  · simp only [transfer]
    rw [List.range_succ, List.map_append]
    rfl

theorem transfer_bytes_le (job : FragmentJob) (n : ℕ) :
    (job.transfer maxMessageBytes n).bytes ≤ job.frame.length := by
  rw [transfer, List.length_take]
  exact Nat.min_le_right _ _

theorem transfer_complete (hpositive : 0 < payloadBytes maxMessageBytes) :
    (job.transfer maxMessageBytes (job.count maxMessageBytes)).parts.flatten = job.frame := by
  simp only [transfer]
  rw [payloads_flatten]
  exact List.take_of_length_le (fragmentCount_bound job.frame.length hpositive).1

end FragmentJob

end Jobs

section Interleaving

variable {n : ℕ} (maxMessageBytes : ℕ) (jobs : Fin n → FragmentJob)

def sentOf (tagged : List (Fin n × Bytes)) (j : Fin n) : List Bytes :=
  (tagged.filter fun e => e.1 = j).map Prod.snd

def inProgress (tagged : List (Fin n × Bytes)) (j : Fin n) : Bool :=
  0 < (sentOf tagged j).length ∧
    (sentOf tagged j).length < ((jobs j).messages maxMessageBytes).length

def openIds (tagged : List (Fin n × Bytes)) : List ℕ :=
  ((List.finRange n).filter (inProgress maxMessageBytes jobs tagged)).map fun j =>
    (jobs j).transferId

/-- The open transfers are those in progress, each with what was sent of it. -/
structure Follows (tagged : List (Fin n × Bytes)) (r : Reassembler) : Prop where
  inside : ∀ j, inProgress maxMessageBytes jobs tagged j = true →
    Entries.get r.transfers (jobs j).transferId =
      some ((jobs j).transfer maxMessageBytes (sentOf tagged j).length)
  outside : ∀ e ∈ r.transfers, ∃ j, inProgress maxMessageBytes jobs tagged j = true ∧
    (jobs j).transferId = e.1

variable {maxMessageBytes jobs}

theorem openIds_distinct {tagged : List (Fin n × Bytes)}
    (h : (openIds maxMessageBytes jobs tagged).Nodup) {i j : Fin n}
    (hi : inProgress maxMessageBytes jobs tagged i = true)
    (hj : inProgress maxMessageBytes jobs tagged j = true)
    (hid : (jobs i).transferId = (jobs j).transferId) : i = j :=
  List.inj_on_of_nodup_map h (List.mem_filter.mpr ⟨List.mem_finRange i, hi⟩)
    (List.mem_filter.mpr ⟨List.mem_finRange j, hj⟩) hid

theorem sentOf_append (xs ys : List (Fin n × Bytes)) (j : Fin n) :
    sentOf (xs ++ ys) j = sentOf xs j ++ sentOf ys j := by
  rw [sentOf, List.filter_append, List.map_append]
  rfl

theorem sentOf_own (j : Fin n) (message : Bytes) : sentOf [(j, message)] j = [message] := by
  simp [sentOf]

theorem sentOf_other {i j : Fin n} (h : i ≠ j) (message : Bytes) : sentOf [(j, message)] i = [] := by
  simp [sentOf, Ne.symm h]

theorem inProgress_other {i j : Fin n} (h : i ≠ j) (tagged : List (Fin n × Bytes))
    (message : Bytes) : inProgress maxMessageBytes jobs (tagged ++ [(j, message)]) i =
      inProgress maxMessageBytes jobs tagged i := by
  rw [inProgress, sentOf_append, sentOf_other h, List.append_nil]
  rfl

variable {maxFrameBytes : ℕ} {tagged : List (Fin n × Bytes)} {r : Reassembler} {j : Fin n}
  {message : Bytes}

theorem Follows.initial : Follows maxMessageBytes jobs [] .empty where
  inside j hj := by simp [inProgress, sentOf] at hj
  outside e he := by cases he

theorem isChannelFragment_frame {frame : Bytes} (h : ¬ fragmentMagic <+: frame) :
    isChannelFragment frame = false := by
  refine decide_eq_false ?_
  intro hfragment
  exact h (hfragment.2 ▸ List.take_prefix _ _)

theorem sent_succ (tagged : List (Fin n × Bytes)) (j : Fin n) (message : Bytes) :
    (sentOf (tagged ++ [(j, message)]) j).length = (sentOf tagged j).length + 1 := by
  rw [sentOf_append, sentOf_own, List.length_append, List.length_singleton]

theorem follows_whole (h : Follows maxMessageBytes jobs tagged r)
    (hmagic : ¬ fragmentMagic <+: (jobs j).frame)
    (hwhole : (jobs j).messages maxMessageBytes = [(jobs j).frame])
    (hnext : ((jobs j).messages maxMessageBytes)[(sentOf tagged j).length]? = some message) :
    (sentOf tagged j).length + 1 = ((jobs j).messages maxMessageBytes).length ∧
      (r.accept maxFrameBytes message).1 = .ok (.frame (jobs j).frame) ∧
      Follows maxMessageBytes jobs (tagged ++ [(j, message)]) (r.accept maxFrameBytes message).2 := by
  rw [hwhole] at hnext
  obtain ⟨hlength, hframe⟩ := List.getElem?_eq_some_iff.mp hnext
  rw [List.length_singleton] at hlength
  have hnone : (sentOf tagged j).length = 0 := by omega
  have hmessage : message = (jobs j).frame := by
    rw [← hframe]
    simp only [hnone, List.getElem_cons_zero]
  have haccept : r.accept maxFrameBytes message = (.ok (.frame message), r) := by
    simp only [Reassembler.accept]
    rw [if_pos (hmessage ▸ isChannelFragment_frame hmagic)]
  have hidle : inProgress maxMessageBytes jobs tagged j = false := by
    simp [inProgress, hnone]
  have hdone : inProgress maxMessageBytes jobs (tagged ++ [(j, message)]) j = false := by
    simp [inProgress, sent_succ, hwhole]
  rw [haccept, hwhole, hnone]
  refine ⟨rfl, by rw [hmessage], ?_, ?_⟩
  · intro i hi
    have hne : i ≠ j := by
      rintro rfl
      rw [hdone] at hi
      cases hi
    rw [inProgress_other hne] at hi
    rw [sentOf_append, sentOf_other hne, List.append_nil]
    exact h.inside i hi
  · intro e he
    obtain ⟨i, hi, hid⟩ := h.outside e he
    have hne : i ≠ j := by
      rintro rfl
      rw [hidle] at hi
      cases hi
    exact ⟨i, by rw [inProgress_other hne]; exact hi, hid⟩

namespace Reassembler

theorem push_fits (h : Balanced maxFrameBytes r)
    (hfew : r.transfers.length ≤ maxConcurrentFragmentTransfers) {f : Fragment}
    {t : PendingTransfer} (hget : Entries.get r.transfers f.transferId = some t)
    (hfits : t.bytes + f.payload.length ≤ maxFrameBytes) {grown : PendingTransfer}
    (hgrown : grown = ⟨t.count, f.index + 1, t.bytes + f.payload.length, t.parts ++ [f.payload]⟩) :
    r.push maxFrameBytes f t =
      if f.index + 1 < t.count then
        (.ok .partialFrame,
          ⟨Entries.set r.transfers f.transferId grown, r.pendingBytes + f.payload.length⟩)
      else
        (.ok (.frame grown.parts.flatten),
          discard ⟨Entries.set r.transfers f.transferId grown, r.pendingBytes + f.payload.length⟩
            f.transferId grown) := by
  have hpending := (h.grown hget hfits (f.index + 1)).pending_le
    ((Entries.length_set_present hget _).trans_le hfew)
  have hlimit : ¬ (maxFrameBytes * maxConcurrentFragmentTransfers <
      r.pendingBytes + f.payload.length ∨ maxFrameBytes < t.bytes + f.payload.length) :=
    not_or.mpr ⟨not_lt.mpr hpending, not_lt.mpr hfits⟩
  simp only [push]
  rw [if_neg hlimit, hgrown]

theorem transferFor_first {f : Fragment} (hindex : f.index = 0)
    (habsent : Entries.get r.transfers f.transferId = none)
    (hroom : r.transfers.length < maxConcurrentFragmentTransfers) :
    r.transferFor f = (some ⟨f.count, 0, 0, []⟩,
      ⟨Entries.set r.transfers f.transferId ⟨f.count, 0, 0, []⟩, r.pendingBytes⟩) := by
  have hdrop : r.drop f.transferId = r := by rw [drop, habsent]
  rw [transferFor, if_pos hindex, restart, hdrop, evictFrom_enough hroom]

theorem transferFor_next {f : Fragment} (hindex : f.index ≠ 0) {t : PendingTransfer}
    (hget : Entries.get r.transfers f.transferId = some t) (hcount : t.count = f.count)
    (hnext : t.nextIndex = f.index) : r.transferFor f = (some t, r) := by
  rw [transferFor, if_neg hindex, hget]
  exact if_pos ⟨hcount, hnext⟩

end Reassembler

theorem follows_room (hkeys : (Entries.keys r.transfers).Nodup)
    (h : Follows maxMessageBytes jobs tagged r) (hunsent : (sentOf tagged j).length = 0)
    (hlong : 1 < ((jobs j).messages maxMessageBytes).length)
    (hdistinct : (openIds maxMessageBytes jobs (tagged ++ [(j, message)])).Nodup)
    (hfew : (openIds maxMessageBytes jobs (tagged ++ [(j, message)])).length ≤
      maxConcurrentFragmentTransfers) :
    Entries.get r.transfers (jobs j).transferId = none ∧
      r.transfers.length < maxConcurrentFragmentTransfers := by
  have hidle : inProgress maxMessageBytes jobs tagged j = false := by
    simp [inProgress, hunsent]
  have hstarted : inProgress maxMessageBytes jobs (tagged ++ [(j, message)]) j = true := by
    simp only [inProgress, sent_succ, hunsent]
    exact decide_eq_true ⟨Nat.zero_lt_succ 0, hlong⟩
  have hopen : ∀ id ∈ Entries.keys r.transfers, ∃ i, i ≠ j ∧
      inProgress maxMessageBytes jobs (tagged ++ [(j, message)]) i = true ∧
      (jobs i).transferId = id := by
    intro id hid
    obtain ⟨e, he, rfl⟩ := List.mem_map.mp hid
    obtain ⟨i, hi, hid⟩ := h.outside e he
    have hne : i ≠ j := fun heq => by
      rw [heq, hidle] at hi
      cases hi
    exact ⟨i, hne, by rw [inProgress_other hne]; exact hi, hid⟩
  have hfresh : (jobs j).transferId ∉ Entries.keys r.transfers := by
    intro hmem
    obtain ⟨i, hne, hi, hid⟩ := hopen _ hmem
    exact hne (openIds_distinct hdistinct hi hstarted hid)
  refine ⟨Entries.get_none.mpr hfresh, ?_⟩
  have hsubset : ((jobs j).transferId :: Entries.keys r.transfers) ⊆
      openIds maxMessageBytes jobs (tagged ++ [(j, message)]) := by
    intro id hid
    rcases List.mem_cons.mp hid with rfl | hid
    · exact List.mem_map.mpr ⟨j, List.mem_filter.mpr ⟨List.mem_finRange j, hstarted⟩, rfl⟩
    · obtain ⟨i, -, hi, rfl⟩ := hopen id hid
      exact List.mem_map.mpr ⟨i, List.mem_filter.mpr ⟨List.mem_finRange i, hi⟩, rfl⟩
  have hcount := (List.subperm_of_subset (List.nodup_cons.mpr ⟨hfresh, hkeys⟩) hsubset).length_le
  rw [List.length_cons, Entries.keys, List.length_map] at hcount
  omega

theorem follows_found (hkeys : (Entries.keys r.transfers).Nodup)
    (h : Follows maxMessageBytes jobs tagged r) {f : Fragment}
    (hid : f.transferId = (jobs j).transferId) (hindex : f.index = (sentOf tagged j).length)
    (hcount : f.count = (jobs j).count maxMessageBytes)
    (hlength : ((jobs j).messages maxMessageBytes).length = (jobs j).count maxMessageBytes)
    (hmore : (sentOf tagged j).length < (jobs j).count maxMessageBytes)
    (htwo : 2 ≤ (jobs j).count maxMessageBytes)
    (hdistinct : (openIds maxMessageBytes jobs (tagged ++ [(j, message)])).Nodup)
    (hfew : (openIds maxMessageBytes jobs (tagged ++ [(j, message)])).length ≤
      maxConcurrentFragmentTransfers) :
    ∃ next, r.transferFor f =
        (some ((jobs j).transfer maxMessageBytes (sentOf tagged j).length), next) ∧
      ∀ id ≠ f.transferId, Entries.get next.transfers id = Entries.get r.transfers id := by
  by_cases hfirst : (sentOf tagged j).length = 0
  · have hlong : 1 < ((jobs j).messages maxMessageBytes).length := by omega
    obtain ⟨habsent, hroom⟩ := follows_room hkeys h hfirst hlong hdistinct hfew
    rw [← hid] at habsent
    refine ⟨⟨Entries.set r.transfers f.transferId ⟨f.count, 0, 0, []⟩, r.pendingBytes⟩, ?_,
      fun id hne => Entries.get_set_other hkeys hne _⟩
    rw [Reassembler.transferFor_first (hindex.trans hfirst) habsent hroom, hfirst, hcount,
      FragmentJob.transfer, Nat.zero_mul]
    rfl
  · have hopen : inProgress maxMessageBytes jobs tagged j = true := by
      refine decide_eq_true ⟨Nat.pos_of_ne_zero hfirst, ?_⟩
      rw [hlength]
      exact hmore
    have hget := h.inside j hopen
    rw [← hid] at hget
    exact ⟨r, Reassembler.transferFor_next (hindex ▸ hfirst) hget hcount.symm hindex.symm,
      fun id _ => rfl⟩

theorem follows_fragment (hholds : Balanced maxFrameBytes r)
    (hsize : r.transfers.length ≤ maxConcurrentFragmentTransfers)
    (h : Follows maxMessageBytes jobs tagged r)
    (hfits : (jobs j).frame.length ≤ maxFrameBytes)
    (hpositive : 0 < FragmentJob.payloadBytes maxMessageBytes)
    (htwo : 2 ≤ (jobs j).count maxMessageBytes)
    (hlength : ((jobs j).messages maxMessageBytes).length = (jobs j).count maxMessageBytes)
    (hmore : (sentOf tagged j).length < (jobs j).count maxMessageBytes)
    (hfragment : fragment? message = some ⟨(jobs j).transferId, (sentOf tagged j).length,
      (jobs j).count maxMessageBytes, fragmentPayload (jobs j).frame
        (FragmentJob.payloadBytes maxMessageBytes) (sentOf tagged j).length⟩)
    (hbefore : (openIds maxMessageBytes jobs tagged).Nodup)
    (hdistinct : (openIds maxMessageBytes jobs (tagged ++ [(j, message)])).Nodup)
    (hfew : (openIds maxMessageBytes jobs (tagged ++ [(j, message)])).length ≤
      maxConcurrentFragmentTransfers) :
    (r.accept maxFrameBytes message).1 = .ok
        (if (sentOf tagged j).length + 1 = ((jobs j).messages maxMessageBytes).length then
          .frame (jobs j).frame else .partialFrame) ∧
      Follows maxMessageBytes jobs (tagged ++ [(j, message)]) (r.accept maxFrameBytes message).2 := by
  let k := (sentOf tagged j).length
  let payload := fragmentPayload (jobs j).frame (FragmentJob.payloadBytes maxMessageBytes) k
  let f : Fragment := ⟨(jobs j).transferId, k, (jobs j).count maxMessageBytes, payload⟩
  let grown := (jobs j).transfer maxMessageBytes (k + 1)
  obtain ⟨next, hfound, hothers⟩ := follows_found (f := f) hholds.keys h rfl rfl rfl hlength hmore
    htwo hdistinct hfew
  have hprepared : Prepared maxFrameBytes r f (some ((jobs j).transfer maxMessageBytes k)) next := by
    have hspec := hholds.transferFor f
    rw [hfound] at hspec
    exact hspec
  have hown := hprepared.own
  obtain ⟨hbytes, hparts⟩ := FragmentJob.transfer_succ maxMessageBytes (jobs j) k
  have hgrown : grown = ⟨(jobs j).count maxMessageBytes, k + 1,
      ((jobs j).transfer maxMessageBytes k).bytes + payload.length,
      ((jobs j).transfer maxMessageBytes k).parts ++ [payload]⟩ := by
    rw [hbytes, hparts]
    rfl
  have hlimit : ((jobs j).transfer maxMessageBytes k).bytes + payload.length ≤ maxFrameBytes := by
    rw [hbytes]
    exact (FragmentJob.transfer_bytes_le (jobs j) (k + 1)).trans hfits
  have hpush := Reassembler.push_fits hprepared.balanced (hprepared.few hsize) hown hlimit hgrown
  have hinside : ∀ i ≠ j, inProgress maxMessageBytes jobs (tagged ++ [(j, message)]) i = true →
      (jobs i).transferId ≠ f.transferId →
      Entries.get next.transfers (jobs i).transferId = some ((jobs i).transfer maxMessageBytes
        (sentOf (tagged ++ [(j, message)]) i).length) := by
    intro i hne hi hid
    rw [inProgress_other hne] at hi
    rw [hothers _ hid, sentOf_append, sentOf_other hne, List.append_nil]
    exact h.inside i hi
  have houtside : ∀ e ∈ next.transfers, e.1 ≠ f.transferId → ∃ i,
      inProgress maxMessageBytes jobs (tagged ++ [(j, message)]) i = true ∧
      (jobs i).transferId = e.1 := by
    intro e he hid
    obtain ⟨i, hi, heq⟩ := h.outside e (hprepared.others e he hid)
    have hne : i ≠ j := fun hij => hid (by rw [← heq, hij])
    exact ⟨i, by rw [inProgress_other hne]; exact hi, heq⟩
  have hkeys := Entries.keys_set_nodup hprepared.balanced.keys f.transferId grown
  have haccept : r.accept maxFrameBytes message = next.push maxFrameBytes f
      ((jobs j).transfer maxMessageBytes k) := by
    rw [r.accept_fragment maxFrameBytes hfragment, hfound]
  rw [haccept, hpush, hlength]
  by_cases hlast : k + 1 < (jobs j).count maxMessageBytes
  · have hpartial : ¬ (sentOf tagged j).length + 1 = (jobs j).count maxMessageBytes :=
      Nat.ne_of_lt hlast
    have hopen : inProgress maxMessageBytes jobs (tagged ++ [(j, message)]) j = true := by
      simp only [inProgress, sent_succ, hlength]
      exact decide_eq_true ⟨Nat.zero_lt_succ _, hlast⟩
    have htaken : f.index + 1 < ((jobs j).transfer maxMessageBytes k).count := hlast
    rw [if_pos htaken, if_neg hpartial]
    refine ⟨rfl, ?_, ?_⟩
    · intro i hi
      by_cases hne : i = j
      · rw [hne, sent_succ]
        exact Entries.get_set_self hprepared.balanced.keys f.transferId grown
      · have hid : (jobs i).transferId ≠ f.transferId := fun heq =>
          hne (openIds_distinct hdistinct hi hopen heq)
        rw [Entries.get_set_other hprepared.balanced.keys hid]
        exact hinside i hne hi hid
    · intro e he
      rcases Entries.mem_set.mp he with rfl | ⟨he, hid⟩
      · exact ⟨j, hopen, rfl⟩
      · exact houtside e he hid
  · have hcomplete : (sentOf tagged j).length + 1 = (jobs j).count maxMessageBytes := by
      have hle := not_lt.mp hlast
      omega
    have hdone : inProgress maxMessageBytes jobs (tagged ++ [(j, message)]) j = false := by
      simp only [inProgress, sent_succ, hlength]
      exact decide_eq_false fun hless => hlast hless.2
    have hstarted : inProgress maxMessageBytes jobs tagged j = true := by
      simp only [inProgress, hlength]
      exact decide_eq_true ⟨by omega, hmore⟩
    have hframe : grown.parts.flatten = (jobs j).frame := by
      have hcount : k + 1 = (jobs j).count maxMessageBytes := hcomplete
      simp only [grown, hcount]
      exact FragmentJob.transfer_complete hpositive
    have htaken : ¬ f.index + 1 < ((jobs j).transfer maxMessageBytes k).count := hlast
    rw [if_neg htaken, if_pos hcomplete, hframe]
    refine ⟨rfl, ?_, ?_⟩
    · intro i hi
      have hne : i ≠ j := fun heq => by
        rw [heq, hdone] at hi
        cases hi
      have hid : (jobs i).transferId ≠ f.transferId := fun heq => by
        rw [inProgress_other hne] at hi
        exact hne (openIds_distinct hbefore hi hstarted heq)
      rw [Reassembler.discard, Entries.get_delete_other hkeys hid,
        Entries.get_set_other hprepared.balanced.keys hid]
      exact hinside i hne hi hid
    · intro e he
      obtain ⟨he, hid⟩ := Entries.mem_delete.mp he
      rcases Entries.mem_set.mp he with rfl | ⟨he, -⟩
      · exact absurd rfl hid
      · exact houtside e he hid

def Spared (r : Reassembler) (opened id : ℕ) : Prop :=
  maxConcurrentFragmentTransfers ≤ (r.drop opened).transfers.length →
    (Entries.keys (r.drop opened).transfers).head? ≠ some id

theorem Reassembler.restart_keeps (hkeys : (Entries.keys r.transfers).Nodup)
    (hfew : r.transfers.length ≤ maxConcurrentFragmentTransfers) {f : Fragment} {id : ℕ}
    (hid : id ≠ f.transferId) {t : PendingTransfer} (hget : Entries.get r.transfers id = some t)
    (hyoung : Spared r f.transferId id) :
    Entries.get (r.restart f).transfers id = some t := by
  have hfree : Entries.get (r.drop f.transferId).transfers id = some t := by
    rw [drop_transfers, Entries.get_delete_other hkeys hid]
    exact hget
  have hlength : (r.drop f.transferId).transfers.length ≤ maxConcurrentFragmentTransfers := by
    rw [drop_transfers]
    exact (Entries.length_delete_le _ _).trans hfew
  have hnodup : (Entries.keys (r.drop f.transferId).transfers).Nodup := by
    rw [drop_transfers]
    exact Entries.keys_delete_nodup hkeys _
  suffices hroom : Entries.get (evictFrom (r.drop f.transferId).transfers
      (r.drop f.transferId).pendingBytes).transfers id = some t by
    rw [Reassembler.restart, Entries.get_set, if_neg hid]
    exact hroom
  unfold Spared at hyoung
  revert hfree hlength hyoung
  generalize (r.drop f.transferId).transfers = free
  generalize (r.drop f.transferId).pendingBytes = pending
  intro hyoung hfree hlength
  by_cases hfull : maxConcurrentFragmentTransfers ≤ free.length
  · cases free with
    | nil => cases hfree
    | cons oldest rest =>
      rw [List.length_cons] at hlength hfull
      have hold : oldest.1 ≠ id := fun heq => hyoung hfull (congrArg some heq)
      rw [Entries.get_cons, if_neg hold] at hfree
      rw [evictFrom, if_pos hfull, evictFrom_enough (by omega)]
      exact hfree
  · rw [evictFrom_enough (not_le.mp hfull)]
    exact hfree

/-- What a fragment does to the transfer of its job and to those it spares. -/
theorem accept_next {job : FragmentJob} {k : ℕ} (hholds : Balanced maxFrameBytes r)
    (hfew : r.transfers.length ≤ maxConcurrentFragmentTransfers)
    (hfits : job.frame.length ≤ maxFrameBytes)
    (hpositive : 0 < FragmentJob.payloadBytes maxMessageBytes) (hmore : k < job.count maxMessageBytes)
    (hfragment : fragment? message = some ⟨job.transferId, k, job.count maxMessageBytes,
      fragmentPayload job.frame (FragmentJob.payloadBytes maxMessageBytes) k⟩)
    (hheld : k ≠ 0 →
      Entries.get r.transfers job.transferId = some (job.transfer maxMessageBytes k)) :
    (r.accept maxFrameBytes message).1 = .ok
        (if k + 1 = job.count maxMessageBytes then .frame job.frame else .partialFrame) ∧
      (k + 1 < job.count maxMessageBytes →
        Entries.get (r.accept maxFrameBytes message).2.transfers job.transferId =
          some (job.transfer maxMessageBytes (k + 1))) ∧
      ∀ id ≠ job.transferId, ∀ t, Entries.get r.transfers id = some t →
        (k = 0 → Spared r job.transferId id) →
        Entries.get (r.accept maxFrameBytes message).2.transfers id = some t := by
  let payload := fragmentPayload job.frame (FragmentJob.payloadBytes maxMessageBytes) k
  let f : Fragment := ⟨job.transferId, k, job.count maxMessageBytes, payload⟩
  let grown := job.transfer maxMessageBytes (k + 1)
  have hfound : ∃ next, r.transferFor f = (some (job.transfer maxMessageBytes k), next) ∧
      ∀ id ≠ job.transferId, ∀ t, Entries.get r.transfers id = some t →
        (k = 0 → Spared r job.transferId id) → Entries.get next.transfers id = some t := by
    by_cases hfirst : k = 0
    · refine ⟨r.restart f, ?_, ?_⟩
      · rw [Reassembler.transferFor, if_pos hfirst, hfirst, FragmentJob.transfer, Nat.zero_mul]
        rfl
      · intro id hid t hget hspared
        exact Reassembler.restart_keeps hholds.keys hfew hid hget (hspared hfirst)
    · refine ⟨r, ?_, fun id _ t hget _ => hget⟩
      exact Reassembler.transferFor_next hfirst (hheld hfirst) rfl rfl
  obtain ⟨next, hfound, hothers⟩ := hfound
  have hprepared : Prepared maxFrameBytes r f (some (job.transfer maxMessageBytes k)) next := by
    have hspec := hholds.transferFor f
    rw [hfound] at hspec
    exact hspec
  obtain ⟨hbytes, hparts⟩ := FragmentJob.transfer_succ maxMessageBytes job k
  have hgrown : grown = ⟨job.count maxMessageBytes, k + 1,
      (job.transfer maxMessageBytes k).bytes + payload.length,
      (job.transfer maxMessageBytes k).parts ++ [payload]⟩ := by
    rw [hbytes, hparts]
    rfl
  have hlimit : (job.transfer maxMessageBytes k).bytes + payload.length ≤ maxFrameBytes := by
    rw [hbytes]
    exact (FragmentJob.transfer_bytes_le job (k + 1)).trans hfits
  have hpush := Reassembler.push_fits hprepared.balanced (hprepared.few hfew) hprepared.own hlimit
    hgrown
  have hkeys := hprepared.balanced.keys
  have hgrownKeys := Entries.keys_set_nodup hkeys job.transferId grown
  have haccept : r.accept maxFrameBytes message =
      next.push maxFrameBytes f (job.transfer maxMessageBytes k) := by
    rw [r.accept_fragment maxFrameBytes hfragment, hfound]
  rw [haccept, hpush]
  by_cases hlast : k + 1 < job.count maxMessageBytes
  · have hmany : f.index + 1 < (job.transfer maxMessageBytes k).count := hlast
    rw [if_pos hmany, if_neg (Nat.ne_of_lt hlast)]
    refine ⟨rfl, fun _ => Entries.get_set_self hkeys _ _, ?_⟩
    intro id hid t hget hspared
    have hkept := hothers id hid t hget hspared
    rw [Entries.get_set_other hkeys hid]
    exact hkept
  · have hcomplete : k + 1 = job.count maxMessageBytes := by omega
    have hframe : grown.parts.flatten = job.frame := by
      simp only [grown, hcomplete]
      exact FragmentJob.transfer_complete hpositive
    have hmany : ¬ f.index + 1 < (job.transfer maxMessageBytes k).count := hlast
    rw [if_neg hmany, if_pos hcomplete, hframe]
    refine ⟨rfl, fun hless => absurd hless hlast, ?_⟩
    intro id hid t hget hspared
    have hkept := hothers id hid t hget hspared
    rw [Reassembler.discard, Entries.get_delete_other hgrownKeys hid,
      Entries.get_set_other hkeys hid]
    exact hkept

def Sendable (maxMessageBytes maxFrameBytes : ℕ) (job : FragmentJob) : Prop :=
  isOk (encodeChannelFragments job.frame maxMessageBytes job.transferId) = true ∧
    job.frame.length ≤ maxFrameBytes ∧ ¬ fragmentMagic <+: job.frame

def OpenApart (ids : List ℕ) : Prop := ids.Nodup ∧ ids.length ≤ maxConcurrentFragmentTransfers

theorem follows_step {messages : List Bytes} (hholds : Holds maxFrameBytes messages r)
    (h : Follows maxMessageBytes jobs tagged r)
    (hsend : Sendable maxMessageBytes maxFrameBytes (jobs j))
    (hnext : ((jobs j).messages maxMessageBytes)[(sentOf tagged j).length]? = some message)
    (hbefore : OpenApart (openIds maxMessageBytes jobs tagged))
    (hafter : OpenApart (openIds maxMessageBytes jobs (tagged ++ [(j, message)]))) :
    (r.accept maxFrameBytes message).1 = .ok
        (if (sentOf tagged j).length + 1 = ((jobs j).messages maxMessageBytes).length then
          .frame (jobs j).frame else .partialFrame) ∧
      Follows maxMessageBytes jobs (tagged ++ [(j, message)]) (r.accept maxFrameBytes message).2 := by
  obtain ⟨hok, hfits, hmagic⟩ := hsend
  rcases FragmentJob.messages_cases hok with hwhole | ⟨hcut, hpositive, hid, htwo, hcount⟩
  · obtain ⟨hlast, haccept, hfollows⟩ := follows_whole h hmagic hwhole hnext
    rw [if_pos hlast]
    exact ⟨haccept, hfollows⟩
  · obtain ⟨hmore, hfragment⟩ :=
      FragmentJob.next_fragment hcut hpositive hid htwo hcount hnext
    have hlength : ((jobs j).messages maxMessageBytes).length = (jobs j).count maxMessageBytes := by
      rw [hcut, fragmentsOf, List.length_map, List.length_range]
      rfl
    exact follows_fragment hholds.balanced hholds.few h hfits hpositive htwo hlength hmore hfragment
      hbefore.1 hafter.1 hafter.2

theorem sent_next {before after : List (Fin n × Bytes)} {messages : List Bytes}
    (h : sentOf (before ++ (j, message) :: after) j = messages) :
    messages[(sentOf before j).length]? = some message := by
  rw [← h, sentOf_append]
  have hhead : sentOf ((j, message) :: after) j = message :: sentOf after j := by
    simp [sentOf]
  rw [hhead, List.getElem?_append_right (le_refl _), Nat.sub_self]
  rfl

/-- After every part of the interleaving the receiver holds what is in progress. -/
theorem follows_run (hsend : ∀ j, Sendable maxMessageBytes maxFrameBytes (jobs j))
    (hsent : ∀ j, sentOf tagged j = (jobs j).messages maxMessageBytes)
    (hapart : ∀ before, before <+: tagged → OpenApart (openIds maxMessageBytes jobs before))
    (before : List (Fin n × Bytes)) (hearly : before <+: tagged) :
    Follows maxMessageBytes jobs before (received maxFrameBytes (before.map Prod.snd)) := by
  induction before using List.reverseRecOn with
  | nil => exact Follows.initial
  | append_singleton before e ih =>
    have hshorter : before <+: tagged := (List.prefix_append _ _).trans hearly
    obtain ⟨after, hafter⟩ := hearly
    obtain ⟨j, message⟩ := e
    have hsplit : before ++ (j, message) :: after = tagged := by
      rw [← hafter, List.append_assoc]
      rfl
    have hnext := sent_next (hsplit ▸ hsent j)
    have hstep := follows_step (received_holds maxFrameBytes (before.map Prod.snd)) (ih hshorter)
      (hsend j) hnext (hapart before hshorter) (hapart _ ⟨after, hafter⟩)
    rw [List.map_append, List.map_singleton, received_append]
    exact hstep.2

end Interleaving

def sampleJobs : List FragmentJob := [⟨List.replicate 1100 1, 7⟩, ⟨List.replicate 1100 2, 8⟩]

def inTurn : List (Fin sampleJobs.length × Bytes) :=
  (List.finRange 2).flatMap fun index => (List.finRange sampleJobs.length).map fun j =>
    (j, ((sampleJobs.get j).messages 1037).getD index.val [])

end Terminay.Protocol
