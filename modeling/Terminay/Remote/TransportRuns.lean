import Terminay.Lib.Lists
import Terminay.Remote.ChannelTransport

/-!
# What a run of a link keeps

As long as a frame that is opened replaces and evicts no transfer that is under way, the
far side yields the frames whose sends resolved, in the order of their last messages.
-/

namespace Terminay.Remote
open Script Protocol

section Calls
variable {calls calls' : List SendCall} {channel : List ChannelMessage} {limit : Option ℕ}
  {bound k : ℕ} {call : SendCall} {message : Bytes}

def SendCall.job (call : SendCall) : FragmentJob := ⟨call.frame, call.transferId⟩

def tableOf (bound : ℕ) (channel : List ChannelMessage) : Reassembler :=
  received bound (channel.map ChannelMessage.bytes)

structure CutInto (limit : ℕ) (call : SendCall) : Prop where
  long : limit < call.frame.length
  encoded : call.job.messages limit = call.messages
  cut : call.messages =
    fragmentsOf call.frame (FragmentJob.payloadBytes limit) call.transferId
  positive : 0 < FragmentJob.payloadBytes limit
  id : call.transferId < 2 ^ 16
  two : 2 ≤ call.job.count limit
  count : call.job.count limit < 2 ^ 16

structure CallSound (limit : Option ℕ) (bound : ℕ) (call : SendCall) : Prop where
  nonempty : call.frame ≠ []
  shape : call.messages = [call.frame] ∨ ∃ m, limit = some m ∧ CutInto m call
  sent : call.sent < call.messages.length
  fits : call.underWay = true → call.frame.length ≤ bound

/-- A frame may be opened: it fits the receiver, a frame sent whole does not look like a
fragment, and one that is cut leaves the transfers under way alone. -/
def ClearToOpen (bound : ℕ) (calls : List SendCall) (channel : List ChannelMessage)
    (call : SendCall) : Prop :=
  call.frame.length ≤ bound ∧
    (call.messages.length ≤ 1 → isChannelFragment call.frame = false) ∧
    (1 < call.messages.length → ∀ other ∈ calls, other.underWay = true →
      other.transferId ≠ call.transferId ∧
        Spared (tableOf bound channel) call.transferId other.transferId)

theorem CutInto.length {m : ℕ} (h : CutInto m call) : call.messages.length = call.job.count m := by
  rw [h.cut, fragmentsOf, List.length_map, List.length_range]
  rfl

theorem CutInto.message_size {m : ℕ} (h : CutInto m call) (hmessage : message ∈ call.messages) :
    message ≠ [] ∧ message.length ≤ m := by
  rw [h.cut, fragmentsOf] at hmessage
  obtain ⟨index, -, rfl⟩ := List.mem_map.mp hmessage
  have hpositive := h.positive
  have hpayload := List.length_take_le (FragmentJob.payloadBytes m)
    (call.frame.drop (index * FragmentJob.payloadBytes m))
  constructor
  · simp [fragmentBytes, fragmentMagic]
  · simp only [fragmentBytes, fragmentPayload, fragmentMagic, uint16, List.length_append,
      List.length_cons, List.length_nil, FragmentJob.payloadBytes, fragmentHeaderBytes] at *
    omega

theorem underWay_unsettled (h : call.underWay = true) : call.unsettled = true ∧ 0 < call.sent := by
  simpa [SendCall.underWay] using h

end Calls

section Sending

def Extends (calls calls' : List SendCall) : Prop :=
  ∀ (k : ℕ) (call : SendCall), calls[k]? = some call →
    ∃ call' : SendCall, calls'[k]? = some call' ∧ call'.frame = call.frame ∧ call'.earlier = call.earlier

structure MessageSound (bound : ℕ) (calls : List SendCall) (before : List ChannelMessage)
    (message : ChannelMessage) : Prop where
  nonempty : message.bytes ≠ []
  size : message.bytes.length ≤ bound
  inside : message.completes = none →
    ((tableOf bound before).accept bound message.bytes).1 = .ok .partialFrame
  last : ∀ k, message.completes = some k → ∃ call : SendCall, calls[k]? = some call ∧ call.frame ≠ [] ∧
    call.frame.length ≤ bound ∧
    ((tableOf bound before).accept bound message.bytes).1 = .ok (.frame call.frame) ∧
    ∀ i ∈ call.earlier, i ∈ completions before

structure Sending (limit : Option ℕ) (bound : ℕ) (calls : List SendCall)
    (channel : List ChannelMessage) : Prop where
  sound : ∀ (k : ℕ) (call : SendCall), calls[k]? = some call → call.unsettled = true → CallSound limit bound call
  held : ∀ (k : ℕ) (call : SendCall), calls[k]? = some call → call.underWay = true → ∃ m, limit = some m ∧
    Entries.get (tableOf bound channel).transfers call.transferId =
      some (call.job.transfer m call.sent)
  apart : ∀ (i j : ℕ) (a b : SendCall), calls[i]? = some a → calls[j]? = some b → a.underWay = true →
    b.underWay = true → a.transferId = b.transferId → i = j
  messages : ∀ before message after, channel = before ++ message :: after →
    MessageSound bound calls before message
  once : (completions channel).Nodup
  resolved : ∀ k, k ∈ completions channel ↔
    ∃ call : SendCall, calls[k]? = some call ∧ call.phase = .resolved
  earlier : ∀ (k : ℕ) (call : SendCall), calls[k]? = some call → ∀ i ∈ call.earlier, i ∈ completions channel

variable {calls calls' : List SendCall} {channel before : List ChannelMessage} {limit : Option ℕ}
  {bound k : ℕ} {call call' : SendCall} {message : Bytes}

theorem tableOf_append (bound : ℕ) (channel : List ChannelMessage) (message : ChannelMessage) :
    tableOf bound (channel ++ [message]) =
      ((tableOf bound channel).accept bound message.bytes).2 := by
  rw [tableOf, List.map_append, List.map_singleton, received_append]
  rfl

theorem completions_append (xs ys : List ChannelMessage) :
    completions (xs ++ ys) = completions xs ++ completions ys := List.filterMap_append

theorem MessageSound.extend {message : ChannelMessage}
    (h : MessageSound bound calls before message) (hext : Extends calls calls') :
    MessageSound bound calls' before message where
  nonempty := h.nonempty
  size := h.size
  inside := h.inside
  last k hk := by
    obtain ⟨call, hcall, hnonempty, hsize, haccept, hearlier⟩ := h.last k hk
    obtain ⟨call', hcall', hframe, hpast⟩ := hext k call hcall
    rw [← hframe] at hnonempty hsize haccept
    rw [← hpast] at hearlier
    exact ⟨call', hcall', hnonempty, hsize, haccept, hearlier⟩

theorem extends_set (hcall : calls[k]? = some call) (hframe : call'.frame = call.frame)
    (hpast : call'.earlier = call.earlier) : Extends calls (calls.set k call') := by
  intro i a ha
  have hk := (List.getElem?_eq_some_iff.mp hcall).1
  by_cases hi : i = k
  · subst hi
    cases hcall.symm.trans ha
    exact ⟨call', Lists.get_set.mpr (.inl ⟨rfl, hk, rfl⟩), hframe, hpast⟩
  · exact ⟨a, Lists.get_set.mpr (.inr ⟨hi, ha⟩), rfl, rfl⟩

theorem extends_append (calls : List SendCall) (call : SendCall) : Extends calls (calls ++ [call]) :=
  fun _ a ha => ⟨a, Lists.get_concat.mpr (.inl ha), rfl, rfl⟩

theorem Sending.rephase (h : Sending limit bound calls channel) (hcall : calls[k]? = some call)
    (hunsettled : call.unsettled = true) {phase : SendPhase} (hphase : phase ≠ .resolved) :
    Sending limit bound (calls.set k (call.withPhase phase)) channel := by
  have hk := (List.getElem?_eq_some_iff.mp hcall).1
  have hway : (call.withPhase phase).underWay = true → call.underWay = true := by
    intro hway
    have hsent : 0 < call.sent := (underWay_unsettled hway).2
    simp [SendCall.underWay, hunsettled, hsent]
  have hback : ∀ (i : ℕ) (a : SendCall), (calls.set k (call.withPhase phase))[i]? = some a →
      a.underWay = true → ∃ b : SendCall, calls[i]? = some b ∧ b.underWay = true ∧ b.transferId = a.transferId ∧ b.job = a.job ∧
        b.sent = a.sent := by
    intro i a ha haway
    rcases Lists.get_set.mp ha with ⟨rfl, -, rfl⟩ | ⟨-, ha⟩
    · exact ⟨call, hcall, hway haway, rfl, rfl, rfl⟩
    · exact ⟨a, ha, haway, rfl, rfl, rfl⟩
  constructor
  case sound =>
    intro i a ha haun
    rcases Lists.get_set.mp ha with ⟨rfl, -, rfl⟩ | ⟨-, ha⟩
    · obtain ⟨hnonempty, hshape, hsent, hfits⟩ := h.sound i call hcall hunsettled
      refine ⟨hnonempty, ?_, hsent, fun haway => hfits (hway haway)⟩
      rcases hshape with hwhole | ⟨m, hm, hcut⟩
      · exact .inl hwhole
      · exact .inr ⟨m, hm, hcut.long, hcut.encoded, hcut.cut, hcut.positive, hcut.id, hcut.two,
          hcut.count⟩
    · exact h.sound i a ha haun
  case held =>
    intro i a ha haway
    obtain ⟨b, hb, hbway, hid, hjob, hsent⟩ := hback i a ha haway
    rw [← hid, ← hjob, ← hsent]
    exact h.held i b hb hbway
  case apart =>
    intro i j a b ha hb haway hbway hid
    obtain ⟨a', ha', haway', haid, -⟩ := hback i a ha haway
    obtain ⟨b', hb', hbway', hbid, -⟩ := hback j b hb hbway
    exact h.apart i j a' b' ha' hb' haway' hbway' (by rw [haid, hbid, hid])
  case messages =>
    intro before message after hsplit
    exact (h.messages before message after hsplit).extend (extends_set hcall rfl rfl)
  case once => exact h.once
  case resolved =>
    intro i
    rw [h.resolved i]
    constructor
    · intro hex
      obtain ⟨a, ha, haphase⟩ := hex
      have hne : i ≠ k := by
        rintro rfl
        cases hcall.symm.trans ha
        simp [SendCall.unsettled, haphase] at hunsettled
      exact ⟨a, Lists.get_set.mpr (.inr ⟨hne, ha⟩), haphase⟩
    · intro hex
      obtain ⟨a, ha, haphase⟩ := hex
      rcases Lists.get_set.mp ha with ⟨rfl, -, rfl⟩ | ⟨-, ha⟩
      · exact absurd haphase hphase
      · exact ⟨a, ha, haphase⟩
  case earlier =>
    intro i a ha
    rcases Lists.get_set.mp ha with ⟨rfl, -, rfl⟩ | ⟨-, ha⟩
    · exact h.earlier i call hcall
    · exact h.earlier i a ha

theorem Sending.start (h : Sending limit bound calls channel) (hfresh : call.sent = 0)
    (hphase : call.phase ≠ .resolved) (hpast : call.earlier = completions channel)
    (hsound : call.unsettled = true → CallSound limit bound call) :
    Sending limit bound (calls ++ [call]) channel := by
  have hidle : call.underWay = false := by simp [SendCall.underWay, hfresh]
  have hback : ∀ (i : ℕ) (a : SendCall), (calls ++ [call])[i]? = some a → a.underWay = true → calls[i]? = some a := by
    intro i a ha haway
    rcases Lists.get_concat.mp ha with ha | ⟨-, rfl⟩
    · exact ha
    · cases hidle.symm.trans haway
  constructor
  case sound =>
    intro i a ha haun
    rcases Lists.get_concat.mp ha with ha | ⟨-, rfl⟩
    · exact h.sound i a ha haun
    · exact hsound haun
  case held => exact fun i a ha haway => h.held i a (hback i a ha haway) haway
  case apart =>
    exact fun i j a b ha hb haway hbway =>
      h.apart i j a b (hback i a ha haway) (hback j b hb hbway) haway hbway
  case messages =>
    intro before message after hsplit
    exact (h.messages before message after hsplit).extend (extends_append calls call)
  case once => exact h.once
  case resolved =>
    intro i
    rw [h.resolved i]
    constructor
    · intro hex
      obtain ⟨a, ha, haphase⟩ := hex
      exact ⟨a, Lists.get_concat.mpr (.inl ha), haphase⟩
    · intro hex
      obtain ⟨a, ha, haphase⟩ := hex
      rcases Lists.get_concat.mp ha with ha | ⟨-, rfl⟩
      · exact ⟨a, ha, haphase⟩
      · exact absurd haphase hphase
  case earlier =>
    intro i a ha
    rcases Lists.get_concat.mp ha with ha | ⟨-, rfl⟩
    · exact h.earlier i a ha
    · exact fun j hj => hpast ▸ hj

structure Taken (limit : Option ℕ) (bound : ℕ) (calls : List SendCall)
    (channel : List ChannelMessage) (k : ℕ) (call : SendCall) (message : Bytes) : Prop where
  nonempty : message ≠ []
  size : message.length ≤ bound
  fits : call.frame.length ≤ bound
  outcome : ((tableOf bound channel).accept bound message).1 =
    .ok (if call.isLast then .frame call.frame else .partialFrame)
  own : call.isLast = false → ∃ m, limit = some m ∧
    Entries.get ((tableOf bound channel).accept bound message).2.transfers call.transferId =
      some (call.job.transfer m (call.sent + 1))
  others : ∀ (i : ℕ) (a : SendCall), calls[i]? = some a → i ≠ k → a.underWay = true →
    ∀ t, Entries.get (tableOf bound channel).transfers a.transferId = some t →
    Entries.get ((tableOf bound channel).accept bound message).2.transfers a.transferId = some t
  distinct : call.isLast = false → ∀ (i : ℕ) (a : SendCall), calls[i]? = some a → i ≠ k →
    a.underWay = true → a.transferId ≠ call.transferId

theorem taken_whole (hsound : CallSound limit bound call) (hwhole : call.messages = [call.frame])
    (hnext : call.messages[call.sent]? = some message)
    (hclear : call.sent = 0 → ClearToOpen bound calls channel call) :
    Taken limit bound calls channel k call message := by
  have hlength : call.messages.length = 1 := by rw [hwhole, List.length_singleton]
  have hsent : call.sent = 0 := by
    have hless := hsound.sent
    omega
  have hmessage : message = call.frame := by
    rw [hwhole, hsent] at hnext
    exact (Option.some.inj hnext).symm
  have hlast : call.isLast = true := by simp [SendCall.isLast, hsent, hlength]
  obtain ⟨hfits, hplain, -⟩ := hclear hsent
  have haccept : (tableOf bound channel).accept bound message =
      (.ok (.frame message), tableOf bound channel) := by
    rw [Reassembler.accept, if_pos (hmessage ▸ hplain hlength.le)]
  constructor
  case nonempty => exact hmessage ▸ hsound.nonempty
  case size => exact hmessage ▸ hfits
  case fits => exact hfits
  case outcome => rw [haccept, hlast, if_pos rfl, hmessage]
  case own => exact fun hmore => by cases hlast.symm.trans hmore
  case others =>
    intro i a _ _ _ t hget
    rw [haccept]
    exact hget
  case distinct => exact fun hmore => by cases hlast.symm.trans hmore

theorem taken_cut (h : Sending limit bound calls channel) (hcall : calls[k]? = some call)
    (hunsettled : call.unsettled = true) {m : ℕ} (hm : limit = some m) (hcut : CutInto m call)
    (hnext : call.messages[call.sent]? = some message)
    (hclear : call.sent = 0 → ClearToOpen bound calls channel call) :
    Taken limit bound calls channel k call message := by
  have hsound := h.sound k call hcall hunsettled
  have hholds := received_holds bound (channel.map ChannelMessage.bytes)
  have hway : call.sent ≠ 0 → call.underWay = true := fun hpos => by
    simp [SendCall.underWay, hunsettled, Nat.pos_of_ne_zero hpos]
  have hmany : 1 < call.messages.length := by
    rw [hcut.length]
    exact hcut.two
  have hfits : call.frame.length ≤ bound := by
    by_cases hsent : call.sent = 0
    · exact (hclear hsent).1
    · exact hsound.fits (hway hsent)
  have hheld : call.sent ≠ 0 → Entries.get (tableOf bound channel).transfers call.transferId =
      some (call.job.transfer m call.sent) := by
    intro hsent
    obtain ⟨m', hm', hget⟩ := h.held k call hcall (hway hsent)
    cases hm.symm.trans hm'
    exact hget
  have hapart : ∀ (i : ℕ) (a : SendCall), calls[i]? = some a → i ≠ k → a.underWay = true →
      a.transferId ≠ call.transferId ∧
        (call.sent = 0 → Spared (tableOf bound channel) call.transferId a.transferId) := by
    intro i a ha hi haway
    by_cases hsent : call.sent = 0
    · obtain ⟨hid, hspared⟩ := (hclear hsent).2.2 hmany a (List.mem_of_getElem? ha) haway
      exact ⟨hid, fun _ => hspared⟩
    · exact ⟨fun hid => hi (h.apart i k a call ha hcall haway (hway hsent) hid),
        fun hzero => absurd hzero hsent⟩
  have hjob : (call.job.messages m)[call.sent]? = some message := by
    rw [hcut.encoded]
    exact hnext
  obtain ⟨hmore, hfragment⟩ := FragmentJob.next_fragment (hcut.encoded.trans hcut.cut)
    hcut.positive hcut.id hcut.two hcut.count hjob
  obtain ⟨houtcome, hown, hothers⟩ := accept_next hholds.balanced hholds.few hfits hcut.positive
    hmore hfragment hheld
  obtain ⟨hnonempty, hsize⟩ := hcut.message_size (List.mem_of_getElem? hnext)
  have hlong := hcut.long
  have hlast : call.isLast = true ↔ call.sent + 1 = call.job.count m := by
    simp [SendCall.isLast, hcut.length]
  constructor
  case nonempty => exact hnonempty
  case size => omega
  case fits => exact hfits
  case outcome =>
    rw [tableOf, houtcome]
    simp only [hlast]
    rfl
  case own =>
    intro hnot
    have hne : call.sent + 1 ≠ call.job.count m := fun heq => by simp [hlast.mpr heq] at hnot
    exact ⟨m, hm, hown (by omega)⟩
  case others =>
    intro i a ha hi haway t hget
    obtain ⟨hid, hspared⟩ := hapart i a ha hi haway
    exact hothers a.transferId hid t hget hspared
  case distinct => exact fun _ i a ha hi haway => (hapart i a ha hi haway).1

theorem Sending.put (h : Sending limit bound calls channel) (hcall : calls[k]? = some call)
    (hunsettled : call.unsettled = true) (hnext : call.messages[call.sent]? = some message)
    (hclear : call.sent = 0 → ClearToOpen bound calls channel call) :
    Sending limit bound (calls.set k call.advance) (channel ++ [messageOf k call message]) := by
  have hsound := h.sound k call hcall hunsettled
  have htaken : Taken limit bound calls channel k call message := by
    rcases hsound.shape with hwhole | ⟨m, hm, hcut⟩
    · exact taken_whole hsound hwhole hnext hclear
    · exact taken_cut h hcall hunsettled hm hcut hnext hclear
  have hk := (List.getElem?_eq_some_iff.mp hcall).1
  have hfresh : k ∉ completions channel := by
    intro hmem
    obtain ⟨a, ha, haphase⟩ := (h.resolved k).mp hmem
    cases hcall.symm.trans ha
    simp [SendCall.unsettled, haphase] at hunsettled
  have hmore : call.advance.unsettled = true → call.isLast = false := by
    intro hadvance
    by_contra hnot
    have hlast : call.isLast = true := eq_true_of_ne_false hnot
    simp [SendCall.advance, SendCall.unsettled, hlast] at hadvance
  have hdone : completions [messageOf k call message] = if call.isLast then [k] else [] := by
    by_cases hlast : call.isLast = true
    · simp [completions, messageOf, hlast]
    · simp [completions, messageOf, hlast]
  constructor
  case sound =>
    intro i a ha haun
    rcases Lists.get_set.mp ha with ⟨rfl, -, rfl⟩ | ⟨-, ha⟩
    · refine ⟨hsound.nonempty, ?_, ?_, fun _ => htaken.fits⟩
      · rcases hsound.shape with hwhole | ⟨m, hm, hcut⟩
        · exact .inl hwhole
        · exact .inr ⟨m, hm, hcut.long, hcut.encoded, hcut.cut, hcut.positive, hcut.id, hcut.two,
            hcut.count⟩
      · have hnot := hmore haun
        have hless := hsound.sent
        simp only [SendCall.isLast, beq_eq_false_iff_ne, SendCall.advance] at hnot ⊢
        omega
    · exact h.sound i a ha haun
  case held =>
    intro i a ha haway
    rw [tableOf_append]
    rcases Lists.get_set.mp ha with ⟨rfl, -, rfl⟩ | ⟨hi, ha⟩
    · exact htaken.own (hmore (underWay_unsettled haway).1)
    · obtain ⟨m, hm, hget⟩ := h.held i a ha haway
      exact ⟨m, hm, htaken.others i a ha hi haway _ hget⟩
  case apart =>
    intro i j a b ha hb haway hbway hid
    rcases Lists.get_set.mp ha with ⟨rfl, -, rfl⟩ | ⟨hi, hold⟩
    · rcases Lists.get_set.mp hb with ⟨rfl, -, rfl⟩ | ⟨hj, hold'⟩
      · rfl
      · have hnot := hmore (underWay_unsettled haway).1
        exact absurd hid.symm (htaken.distinct hnot j b hold' hj hbway)
    · rcases Lists.get_set.mp hb with ⟨rfl, -, rfl⟩ | ⟨hj, hold'⟩
      · have hnot := hmore (underWay_unsettled hbway).1
        exact absurd hid (htaken.distinct hnot i a hold hi haway)
      · exact h.apart i j a b hold hold' haway hbway hid
  case messages =>
    intro before message' after hsplit
    have hext : Extends calls (calls.set k call.advance) := extends_set hcall rfl rfl
    rcases Lists.split_append_singleton hsplit with ⟨rfl, rfl⟩ | ⟨after', hsplit⟩
    · have houtcome := htaken.outcome
      refine ⟨htaken.nonempty, htaken.size, ?_, ?_⟩
      · intro hnone
        have hnot : ¬ call.isLast = true := fun hlast => by simp [messageOf, hlast] at hnone
        rw [if_neg hnot] at houtcome
        exact houtcome
      · intro i hi
        have hlast : call.isLast = true := by
          by_contra hnot
          simp [messageOf, hnot] at hi
        have hik : i = k := by
          simp only [messageOf, hlast, if_true, Option.some.injEq] at hi
          exact hi.symm
        rw [if_pos hlast] at houtcome
        refine ⟨call.advance, ?_, hsound.nonempty, htaken.fits, houtcome, h.earlier k call hcall⟩
        exact Lists.get_set.mpr (.inl ⟨hik, hk, rfl⟩)
    · exact (h.messages before message' after' hsplit).extend hext
  case once =>
    rw [completions_append, hdone]
    split_ifs
    · refine List.nodup_append.mpr ⟨h.once, List.nodup_singleton k, ?_⟩
      intro a ha b hb hab
      rw [hab, List.mem_singleton.mp hb] at ha
      exact hfresh ha
    · rw [List.append_nil]
      exact h.once
  case resolved =>
    intro i
    rw [completions_append, List.mem_append, h.resolved i, hdone]
    constructor
    · intro hor
      rcases hor with ⟨a, ha, haphase⟩ | hmem
      · have hi : i ≠ k := by
          rintro rfl
          exact hfresh ((h.resolved i).mpr ⟨a, ha, haphase⟩)
        exact ⟨a, Lists.get_set.mpr (.inr ⟨hi, ha⟩), haphase⟩
      · split_ifs at hmem with hlast
        · refine ⟨call.advance, Lists.get_set.mpr (.inl ⟨List.mem_singleton.mp hmem, hk, rfl⟩), ?_⟩
          simp [SendCall.advance, hlast]
        · cases hmem
    · intro hex
      obtain ⟨a, ha, haphase⟩ := hex
      rcases Lists.get_set.mp ha with ⟨rfl, -, rfl⟩ | ⟨-, ha⟩
      · have hlast : call.isLast = true := by
          by_contra hnot
          simp [SendCall.advance, hnot] at haphase
        rw [if_pos hlast]
        exact .inr (List.mem_singleton_self i)
      · exact .inl ⟨a, ha, haphase⟩
  case earlier =>
    intro i a ha j hj
    rw [completions_append, List.mem_append]
    rcases Lists.get_set.mp ha with ⟨rfl, -, rfl⟩ | ⟨-, ha⟩
    · exact .inl (h.earlier i call hcall j hj)
    · exact .inl (h.earlier i a ha j hj)

end Sending

section Transports
variable {t t' : ChannelTransport} {frame message : Bytes} {bound : ℕ}

theorem fail_sender (reason : TransportCloseReason) (t : ChannelTransport) :
    (t.fail reason).maxMessageBytes = t.maxMessageBytes ∧
      (t.fail reason).transferId = t.transferId := by
  unfold ChannelTransport.fail ChannelTransport.finishIncoming
  split_ifs <;> exact ⟨rfl, rfl⟩

theorem waitForWritable_sender (requiredBytes : ℕ) (reading : Option ℤ) (expired : Bool)
    (t : ChannelTransport) :
    (t.waitForWritable requiredBytes reading expired).2.maxMessageBytes = t.maxMessageBytes ∧
      (t.waitForWritable requiredBytes reading expired).2.transferId = t.transferId := by
  have hread : (t.readBufferedAmount reading).2.maxMessageBytes = t.maxMessageBytes ∧
      (t.readBufferedAmount reading).2.transferId = t.transferId := by
    unfold ChannelTransport.readBufferedAmount
    rcases reading with _ | buffered
    · exact fail_sender _ t
    · dsimp only
      split_ifs
      · exact fail_sender _ t
      · exact ⟨rfl, rfl⟩
  unfold ChannelTransport.waitForWritable
  by_cases hsize : requiredBytes = 0 ∨ t.maxBufferedBytes < requiredBytes
  · rw [if_pos hsize]
    exact ⟨rfl, rfl⟩
  · rw [if_neg hsize]
    by_cases hstate : t.currentState ≠ .opened
    · rw [if_pos hstate]
      exact ⟨rfl, rfl⟩
    · rw [if_neg hstate]
      rcases hamount : t.readBufferedAmount reading with ⟨_ | buffered, next⟩
      · rw [hamount] at hread
        exact hread
      · dsimp only
        split_ifs
        · exact ⟨rfl, rfl⟩
        · exact fail_sender _ t
        · exact ⟨rfl, rfl⟩

theorem send_spec (frame : Bytes) (aborted : Bool) (t : ChannelTransport) :
    (t.send frame aborted).2.maxMessageBytes = t.maxMessageBytes ∧
      ∀ messages, (t.send frame aborted).1 = .ok messages → frame ≠ [] ∧
        (messages = [frame] ∨ ∃ m, t.maxMessageBytes = some m ∧ m < frame.length ∧
          encodeChannelFragments frame m (t.send frame aborted).2.transferId = .ok messages) := by
  have hmessages : (t.messagesFor frame).2.maxMessageBytes = t.maxMessageBytes ∧
      ∀ messages, (t.messagesFor frame).1 = .ok messages →
        (messages = [frame] ∨ ∃ m, t.maxMessageBytes = some m ∧ m < frame.length ∧
          encodeChannelFragments frame m (t.messagesFor frame).2.transferId = .ok messages) := by
    unfold ChannelTransport.messagesFor
    rcases hlimit : t.maxMessageBytes with _ | m
    · exact ⟨hlimit, fun messages hok => .inl (Except.ok.inj hok).symm⟩
    · dsimp only
      split_ifs with hsize
      · exact ⟨hlimit, fun messages hok => .inl (Except.ok.inj hok).symm⟩
      · exact ⟨hlimit, fun messages hok => .inr ⟨m, rfl, not_le.mp hsize, hok⟩⟩
  unfold ChannelTransport.send validateTransportFrame
  by_cases haborted : aborted = true
  · rw [if_pos haborted]
    exact ⟨rfl, fun messages hok => by cases hok⟩
  · rw [if_neg haborted]
    split_ifs with hbounds
    · exact ⟨rfl, fun messages hok => by cases hok⟩
    · have hnonempty : frame ≠ [] := fun hnil => hbounds (.inl (by rw [hnil]; rfl))
      rcases hfor : t.messagesFor frame with ⟨_ | messages, taken⟩
      · rw [hfor] at hmessages
        exact ⟨hmessages.1, fun messages hok => by cases hok⟩
      · rw [hfor] at hmessages
        refine ⟨hmessages.1, fun messages' hok => ⟨hnonempty, hmessages.2 messages' ?_⟩⟩
        exact congrArg Except.ok (Except.ok.inj hok)

theorem send_sound {aborted : Bool} {messages : List Bytes} {earlier : List ℕ}
    (h : (t.send frame aborted).1 = .ok messages) :
    CallSound t.maxMessageBytes bound
      ⟨frame, (t.send frame aborted).2.transferId, messages, 0, .waiting, earlier⟩ := by
  obtain ⟨hnonempty, hshape⟩ := (send_spec frame aborted t).2 messages h
  have hidle : ∀ {n : ℕ}, (⟨frame, n, messages, 0, .waiting, earlier⟩ : SendCall).underWay = false :=
    rfl
  rcases hshape with rfl | ⟨m, hm, hlong, hencode⟩
  · exact ⟨hnonempty, .inl rfl, Nat.one_pos, fun hway => by cases hidle.symm.trans hway⟩
  · let job : FragmentJob := ⟨frame, (t.send frame aborted).2.transferId⟩
    have hjob : job.messages m = messages := by rw [FragmentJob.messages, hencode]
    have hok : Outcome.isOk (encodeChannelFragments job.frame m job.transferId) = true :=
      Outcome.isOk_iff.mpr ⟨messages, hencode⟩
    rcases FragmentJob.messages_cases hok with hwhole | ⟨hcut, hpositive, hid, htwo, hcount⟩
    · have hone : messages = [frame] := hjob.symm.trans hwhole
      refine ⟨hnonempty, .inl hone, ?_, fun hway => by cases hidle.symm.trans hway⟩
      rw [hone]
      exact Nat.one_pos
    · have hinto : CutInto m ⟨frame, (t.send frame aborted).2.transferId, messages, 0, .waiting,
          earlier⟩ := ⟨hlong, hjob, hjob.symm.trans hcut, hpositive, hid, htwo, hcount⟩
      have hlength : messages.length = job.count m := hinto.length
      refine ⟨hnonempty, .inr ⟨m, hm, hinto⟩, ?_, fun hway => by cases hidle.symm.trans hway⟩
      show 0 < messages.length
      omega

def AdmissionFits (t : ChannelTransport) :
    Except FragmentError ChannelFragmentAdmission × Reassembler → Prop
  | (.ok .partialFrame, r) => t.inboundBytes + r.pendingBytes ≤ t.maxInboundBytes
  | (.ok (.frame frame), _) => t.inboundBytes + frame.length ≤ t.maxInboundBytes
  | (.error _, _) => True

def FitsInbound (t : ChannelTransport) (message : Bytes) : Prop :=
  AdmissionFits t (t.reassembler.accept t.maxFrameBytes message)

structure Alive (t : ChannelTransport) : Prop where
  opened : t.currentState = .opened
  reading : t.inboundEnded = false
  counted : t.inboundBytes = (t.inbound.map List.length).sum
  waiting : 0 < t.incomingWaiters → t.inbound = []

theorem validate_ok (hnonempty : message ≠ []) (hsize : message.length ≤ bound) :
    validateTransportFrame message bound = .ok () := by
  have hlength : message.length ≠ 0 := fun h => hnonempty (List.length_eq_zero_iff.mp h)
  rw [validateTransportFrame, if_neg]
  omega

theorem queueFrame_alive (h : Alive t) (frame : Bytes) :
    Alive (t.queueFrame frame) ∧ (t.queueFrame frame).yielded ++ (t.queueFrame frame).inbound =
      t.yielded ++ t.inbound ++ [frame] := by
  unfold ChannelTransport.queueFrame
  have hcounted := h.counted
  split_ifs with hwaiters
  · have hempty := h.waiting hwaiters
    refine ⟨⟨h.opened, h.reading, hcounted, fun _ => hempty⟩, ?_⟩
    simp only [hempty, List.append_nil]
  · refine ⟨⟨h.opened, h.reading, ?_, fun hpos => absurd hpos hwaiters⟩, ?_⟩
    · simp only [List.map_append, List.sum_append, List.map_singleton, List.sum_singleton]
      omega
    · simp only [List.append_assoc]

theorem nextIncoming_alive (h : Alive t) :
    Alive t.nextIncoming ∧ t.nextIncoming.maxFrameBytes = t.maxFrameBytes ∧
      t.nextIncoming.reassembler = t.reassembler ∧
      t.nextIncoming.yielded ++ t.nextIncoming.inbound = t.yielded ++ t.inbound ∧
      t.nextIncoming.inbound = t.inbound.tail := by
  have hcounted := h.counted
  rcases hinbound : t.inbound with _ | ⟨frame, inbound⟩
  · have hnext : t.nextIncoming = { t with incomingWaiters := t.incomingWaiters + 1 } := by
      rw [ChannelTransport.nextIncoming, hinbound]
      simp only [h.reading, Bool.false_eq_true, if_false]
    rw [hnext]
    exact ⟨⟨h.opened, h.reading, hcounted, fun _ => hinbound⟩, rfl, rfl, by rw [hinbound], hinbound⟩
  · have hnext : t.nextIncoming = { t with
        inbound
        inboundBytes := t.inboundBytes - frame.length
        yielded := t.yielded ++ [frame] } := by
      rw [ChannelTransport.nextIncoming, hinbound]
    rw [hinbound] at hcounted
    simp only [List.map_cons, List.sum_cons] at hcounted
    rw [hnext]
    refine ⟨⟨h.opened, h.reading, ?_, ?_⟩, rfl, rfl, ?_, rfl⟩
    · simp only
      omega
    · intro hpos
      have hempty := h.waiting hpos
      cases hinbound.symm.trans hempty
    · simp only [List.append_assoc, List.singleton_append]

def ChannelTransport.given (t : ChannelTransport) : ChannelFragmentAdmission → ChannelTransport
  | .partialFrame => t
  | .frame frame => t.queueFrame frame

def framesOf : ChannelFragmentAdmission → List Bytes
  | .partialFrame => []
  | .frame frame => [frame]

theorem enqueueIncoming_taken (h : Alive t) (hnonempty : message ≠ [])
    (hsize : message.length ≤ t.maxFrameBytes) (hbudget : FitsInbound t message)
    {admission : ChannelFragmentAdmission} {r : Reassembler}
    (haccept : t.reassembler.accept t.maxFrameBytes message = (.ok admission, r))
    (hframe : ∀ frame, admission = .frame frame → frame ≠ [] ∧ frame.length ≤ t.maxFrameBytes) :
    t.enqueueIncoming message = { t with reassembler := r }.given admission := by
  have hrunning : ¬ (t.inboundEnded = true ∨ t.currentState = .closed ∨ t.currentState = .failed) := by
    rw [h.reading, h.opened]
    decide
  rw [ChannelTransport.enqueueIncoming, if_neg hrunning, validate_ok hnonempty hsize]
  simp only
  rw [FitsInbound, haccept] at hbudget
  rw [haccept]
  cases admission with
  | partialFrame =>
    simp only [ChannelTransport.takeAdmission, ChannelTransport.given] at hbudget ⊢
    rw [if_neg (not_lt.mpr hbudget)]
  | frame frame =>
    obtain ⟨hfilled, hfits⟩ := hframe frame rfl
    simp only [ChannelTransport.takeAdmission, ChannelTransport.given] at hbudget ⊢
    rw [validate_ok hfilled hfits]
    simp only
    rw [if_neg (not_lt.mpr hbudget)]

theorem enqueueIncoming_alive (h : Alive t) (hnonempty : message ≠ [])
    (hsize : message.length ≤ t.maxFrameBytes) (hbudget : FitsInbound t message)
    {admission : ChannelFragmentAdmission}
    (haccept : (t.reassembler.accept t.maxFrameBytes message).1 = .ok admission)
    (hframe : ∀ frame, admission = .frame frame → frame ≠ [] ∧ frame.length ≤ t.maxFrameBytes) :
    Alive (t.enqueueIncoming message) ∧
      (t.enqueueIncoming message).maxFrameBytes = t.maxFrameBytes ∧
      (t.enqueueIncoming message).reassembler =
        (t.reassembler.accept t.maxFrameBytes message).2 ∧
      (t.enqueueIncoming message).yielded ++ (t.enqueueIncoming message).inbound =
        t.yielded ++ t.inbound ++ framesOf admission := by
  rcases hr : t.reassembler.accept t.maxFrameBytes message with ⟨result, r⟩
  rw [hr] at haccept
  cases haccept
  have hnext : Alive { t with reassembler := r } := ⟨h.opened, h.reading, h.counted, h.waiting⟩
  rw [enqueueIncoming_taken h hnonempty hsize hbudget hr hframe]
  cases admission with
  | partialFrame => exact ⟨hnext, rfl, rfl, (List.append_nil _).symm⟩
  | frame frame =>
    obtain ⟨halive, hyield⟩ := queueFrame_alive hnext frame
    refine ⟨halive, ?_, ?_, hyield⟩
    · simp only [ChannelTransport.given, ChannelTransport.queueFrame]
      split_ifs <;> rfl
    · simp only [ChannelTransport.given, ChannelTransport.queueFrame]
      split_ifs <;> rfl

end Transports

section Links

def Link.arrivals (s : Link) : List ℕ := completions (s.channel.take s.delivered)

def Link.frameOf (s : Link) (k : ℕ) : Bytes := (s.calls[k]?.map SendCall.frame).getD []

def Link.drained (s : Link) : Link :=
  Runs.after Link.step s (List.replicate s.far.inbound.length .next)

def Link.WithinBudget (s : Link) : LinkInput → Prop
  | .deliver => ∀ message ∈ s.channel[s.delivered]?, FitsInbound s.far message.bytes
  | _ => True

def Link.OpensClear (s : Link) : LinkInput → Prop
  | .put k true => ∀ call ∈ s.calls[k]?, call.phase = .writable → s.near.currentState = .opened →
      call.sent = 0 → ClearToOpen s.far.maxFrameBytes s.calls s.channel call
  | _ => True

structure Link.Faithful (s : Link) : Prop where
  alive : s.far.currentState = .opened
  once : s.arrivals.Nodup
  resolved : ∀ k ∈ s.arrivals, ∃ call : SendCall, s.calls[k]? = some call ∧ call.phase = .resolved
  complete : s.delivered = s.channel.length → ∀ (k : ℕ) (call : SendCall), s.calls[k]? = some call →
    call.phase = .resolved → k ∈ s.arrivals
  frames : s.far.yielded ++ s.far.inbound = s.arrivals.map s.frameOf
  ordered : ∀ (k : ℕ) (call : SendCall), s.calls[k]? = some call → k ∈ s.arrivals →
    ∀ i ∈ call.earlier, [i, k].Sublist s.arrivals
  buffered : s.far.bufferedBytes = (s.far.inbound.map List.length).sum
  drains : s.drained.far.yielded = s.arrivals.map s.frameOf

structure LinkSound (limit : Option ℕ) (bound : ℕ) (s : Link) : Prop where
  nearLimit : s.near.maxMessageBytes = limit
  farBound : s.far.maxFrameBytes = bound
  sending : Sending limit bound s.calls s.channel
  alive : Alive s.far
  delivered : s.delivered ≤ s.channel.length
  table : s.far.reassembler = tableOf bound (s.channel.take s.delivered)
  frames : s.far.yielded ++ s.far.inbound = s.arrivals.map s.frameOf

variable {limit : Option ℕ} {bound k : ℕ} {s s' : Link} {call : SendCall}

theorem frameOf_extends (hext : Extends s.calls s'.calls) (hcall : s.calls[k]? = some call) :
    s'.frameOf k = s.frameOf k := by
  obtain ⟨call', hcall', hframe, -⟩ := hext k call hcall
  simp only [Link.frameOf, hcall, hcall', Option.map_some, Option.getD_some, hframe]

theorem LinkSound.arrival (h : LinkSound limit bound s) (hk : k ∈ s.arrivals) :
    ∃ call : SendCall, s.calls[k]? = some call ∧ call.phase = .resolved := by
  refine (h.sending.resolved k).mp ?_
  rw [← List.take_append_drop s.delivered s.channel, completions_append]
  exact List.mem_append_left _ hk

theorem LinkSound.sendOn (h : LinkSound limit bound s) (hlimit : s'.near.maxMessageBytes = limit)
    (hsending : Sending limit bound s'.calls s'.channel) (hext : Extends s.calls s'.calls)
    (hchannel : s.channel <+: s'.channel) (hfar : s'.far = s.far)
    (hdelivered : s'.delivered = s.delivered) : LinkSound limit bound s' := by
  obtain ⟨more, hmore⟩ := hchannel
  have htake : s'.channel.take s'.delivered = s.channel.take s.delivered := by
    rw [hdelivered, ← hmore, List.take_append_of_le_length h.delivered]
  have harrivals : s'.arrivals = s.arrivals := by rw [Link.arrivals, htake, Link.arrivals]
  constructor
  case nearLimit => exact hlimit
  case farBound => rw [hfar, h.farBound]
  case sending => exact hsending
  case alive =>
    rw [hfar]
    exact h.alive
  case delivered =>
    have hle := h.delivered
    rw [hdelivered, ← hmore, List.length_append]
    omega
  case table => rw [hfar, htake, h.table]
  case frames =>
    rw [hfar, harrivals, h.frames]
    refine List.map_congr_left fun k hk => ?_
    obtain ⟨call, hcall, -⟩ := h.arrival hk
    exact (frameOf_extends hext hcall).symm

theorem extends_refl (calls : List SendCall) : Extends calls calls :=
  fun _ call hcall => ⟨call, hcall, rfl, rfl⟩

theorem LinkSound.rephase (h : LinkSound limit bound s) (hcall : s.calls[k]? = some call)
    (hunsettled : call.unsettled = true) {phase : SendPhase} (hphase : phase ≠ .resolved)
    {near : ChannelTransport} (hlimit : near.maxMessageBytes = s.near.maxMessageBytes) :
    LinkSound limit bound (Link.setCall k (call.withPhase phase) { s with near }) := by
  have hnear : near.maxMessageBytes = limit := hlimit.trans h.nearLimit
  exact h.sendOn hnear (h.sending.rephase hcall hunsettled hphase)
    (extends_set hcall rfl rfl) (List.prefix_refl _) rfl rfl

theorem LinkSound.start (h : LinkSound limit bound s) (frame : Bytes) (aborted : Bool) :
    LinkSound limit bound (s.start frame aborted) := by
  have hspec := (send_spec frame aborted s.near).1
  have hnear : (s.near.send frame aborted).2.maxMessageBytes = limit := hspec.trans h.nearLimit
  rcases hsend : (s.near.send frame aborted).1 with e | messages
  · refine h.sendOn ?_ ?_ ?_ (List.prefix_refl _) rfl rfl
    · exact hnear
    · simp only [Link.start, hsend]
      refine h.sending.start rfl ?_ rfl fun hun => ?_
      · exact fun hphase => by cases hphase
      · cases hun
    · exact extends_append _ _
  · refine h.sendOn ?_ ?_ ?_ (List.prefix_refl _) rfl rfl
    · exact hnear
    · simp only [Link.start, hsend]
      refine h.sending.start rfl ?_ rfl fun _ => ?_
      · exact fun hphase => by cases hphase
      · rw [← h.nearLimit]
        exact send_sound hsend
    · exact extends_append _ _

theorem unsettled_waiting (h : call.phase = .waiting) : call.unsettled = true := by
  simp [SendCall.unsettled, h]

theorem unsettled_writable (h : call.phase = .writable) : call.unsettled = true := by
  simp [SendCall.unsettled, h]

theorem LinkSound.poll (h : LinkSound limit bound s) (k : ℕ) (reading : Option ℤ) (expired : Bool) :
    LinkSound limit bound (s.poll k reading expired) := by
  unfold Link.poll
  rcases hcall : s.calls[k]? with _ | call
  · exact h
  · dsimp only
    split
    · rename_i message hphase hnext
      have hsender := (waitForWritable_sender message.length reading expired s.near).1
      have hunsettled := unsettled_waiting hphase
      rcases hwait : s.near.waitForWritable message.length reading expired with ⟨turn, near⟩
      rw [hwait] at hsender
      cases turn with
      | again =>
        have hnear : near.maxMessageBytes = limit := hsender.trans h.nearLimit
        exact h.sendOn hnear h.sending (extends_refl _) (List.prefix_refl _) rfl rfl
      | writable => exact h.rephase hcall hunsettled (fun hp => by cases hp) hsender
      | rejected e => exact h.rephase hcall hunsettled (fun hp => by cases hp) hsender
    · exact h

theorem LinkSound.abort (h : LinkSound limit bound s) (k : ℕ) :
    LinkSound limit bound (s.abort k) := by
  unfold Link.abort
  rcases hcall : s.calls[k]? with _ | call
  · exact h
  · dsimp only
    split_ifs with hphase
    · exact h.rephase hcall (unsettled_waiting hphase) (fun hp => by cases hp) rfl
    · exact h

theorem LinkSound.put (h : LinkSound limit bound s) (k : ℕ) (accepted : Bool)
    (hclear : s.OpensClear (.put k accepted)) : LinkSound limit bound (s.put k accepted) := by
  unfold Link.put
  rcases hcall : s.calls[k]? with _ | call
  · exact h
  · dsimp only
    split
    · rename_i message hphase hnext
      have hunsettled := unsettled_writable hphase
      split_ifs with hstate haccepted
      · exact h.rephase hcall hunsettled (fun hp => by cases hp) rfl
      · exact h.rephase hcall hunsettled (fun hp => by cases hp) rfl
      · have htrue : accepted = true := by simpa using haccepted
        subst htrue
        have hopen := hclear call hcall hphase (not_not.mp hstate)
        rw [h.farBound] at hopen
        exact h.sendOn h.nearLimit (h.sending.put hcall hunsettled hnext hopen)
          (extends_set hcall rfl rfl) (List.prefix_append _ _) rfl rfl
    · exact h

theorem LinkSound.deliver (h : LinkSound limit bound s) (hbudget : s.WithinBudget .deliver) :
    LinkSound limit bound s.deliver := by
  unfold Link.deliver
  rcases hmessage : s.channel[s.delivered]? with _ | message
  · exact h
  · obtain ⟨hless, hget⟩ := List.getElem?_eq_some_iff.mp hmessage
    have hsplit : s.channel = s.channel.take s.delivered ++ message ::
        s.channel.drop (s.delivered + 1) := by
      rw [← hget, List.getElem_cons_drop, List.take_append_drop]
    have htake : s.channel.take (s.delivered + 1) = s.channel.take s.delivered ++ [message] := by
      rw [List.take_add_one, hmessage]
      rfl
    have hsound := h.sending.messages _ message _ hsplit
    have hsize : message.bytes.length ≤ s.far.maxFrameBytes := by
      rw [h.farBound]
      exact hsound.size
    have hfits := hbudget message hmessage
    have harrived : ∃ admission,
        (s.far.reassembler.accept s.far.maxFrameBytes message.bytes).1 = .ok admission ∧
        (∀ frame, admission = .frame frame → frame ≠ [] ∧ frame.length ≤ s.far.maxFrameBytes) ∧
        framesOf admission = (completions [message]).map s.frameOf := by
      rw [h.table, h.farBound]
      rcases hcompletes : message.completes with _ | k
      · refine ⟨.partialFrame, hsound.inside hcompletes, fun frame heq => (by cases heq), ?_⟩
        simp [framesOf, completions, hcompletes]
      · obtain ⟨call, hcall, hnonempty, hlength, haccept, -⟩ := hsound.last k hcompletes
        refine ⟨.frame call.frame, haccept, ?_, ?_⟩
        · intro frame heq
          cases heq
          exact ⟨hnonempty, hlength⟩
        · simp [framesOf, completions, hcompletes, Link.frameOf, hcall]
    obtain ⟨admission, haccept, hframe, hframes⟩ := harrived
    obtain ⟨halive, hbound, htable, hyield⟩ :=
      enqueueIncoming_alive h.alive hsound.nonempty hsize hfits haccept hframe
    constructor
    case nearLimit => exact h.nearLimit
    case farBound => exact hbound.trans h.farBound
    case sending => exact h.sending
    case alive => exact halive
    case delivered => exact hless
    case table =>
      simp only
      rw [htable, htake, tableOf_append, h.table, h.farBound]
    case frames =>
      simp only [Link.arrivals]
      rw [hyield, htake, completions_append, List.map_append, h.frames, hframes]
      rfl

theorem LinkSound.next (h : LinkSound limit bound s) : LinkSound limit bound (s.step .next) := by
  obtain ⟨halive, hbound, htable, hyield, -⟩ := nextIncoming_alive h.alive
  constructor
  case nearLimit => exact h.nearLimit
  case farBound => exact hbound.trans h.farBound
  case sending => exact h.sending
  case alive => exact halive
  case delivered => exact h.delivered
  case table => exact htable.trans h.table
  case frames => exact hyield.trans h.frames

theorem LinkSound.step (h : LinkSound limit bound s) (input : LinkInput)
    (hinput : s.WithinBudget input ∧ s.OpensClear input) :
    LinkSound limit bound (s.step input) := by
  cases input with
  | send frame aborted => exact h.start frame aborted
  | poll k reading expired => exact h.poll k reading expired
  | put k accepted => exact h.put k accepted hinput.2
  | abort k => exact h.abort k
  | deliver => exact h.deliver hinput.1
  | next => exact h.next

theorem reads_give (n : ℕ) {s : Link} (halive : Alive s.far) (hn : s.far.inbound.length = n) :
    (Runs.after Link.step s (List.replicate n .next)).far.yielded =
      s.far.yielded ++ s.far.inbound := by
  induction n generalizing s with
  | zero => rw [List.length_eq_zero_iff.mp hn, List.append_nil]; rfl
  | succ n ih =>
    obtain ⟨hnext, -, -, hyield, htail⟩ := nextIncoming_alive halive
    have hlength : s.far.nextIncoming.inbound.length = n := by
      rw [htail, List.length_tail, hn]
      rfl
    have hrest : (Runs.after Link.step (s.step .next) (List.replicate n .next)).far.yielded =
        s.far.nextIncoming.yielded ++ s.far.nextIncoming.inbound := ih hnext hlength
    rw [← hyield, ← hrest]
    rfl

theorem LinkSound.ordered (h : LinkSound limit bound s) (hcall : s.calls[k]? = some call)
    (hk : k ∈ s.arrivals) {i : ℕ} (hi : i ∈ call.earlier) : [i, k].Sublist s.arrivals := by
  obtain ⟨message, hmem, hcompletes⟩ := List.mem_filterMap.mp hk
  obtain ⟨before, after, hsplit⟩ := List.append_of_mem hmem
  have hchannel : s.channel = before ++ message :: (after ++ s.channel.drop s.delivered) := by
    rw [← List.cons_append, ← List.append_assoc, ← hsplit, List.take_append_drop]
  obtain ⟨call', hcall', -, -, -, hearlier⟩ :=
    (h.sending.messages before message _ hchannel).last k hcompletes
  cases hcall.symm.trans hcall'
  have harrivals : s.arrivals = completions before ++ (k :: completions after) := by
    rw [Link.arrivals, hsplit, completions_append, completions, completions, completions,
      List.filterMap_cons_some hcompletes]
  have hpair : ([i] ++ [k]).Sublist (completions before ++ (k :: completions after)) :=
    (List.singleton_sublist.mpr (hearlier i hi)).append
      (List.singleton_sublist.mpr List.mem_cons_self)
  rw [harrivals]
  exact hpair

theorem LinkSound.faithful (h : LinkSound limit bound s) : s.Faithful := by
  have hpart : (s.channel.take s.delivered).Sublist s.channel := List.take_sublist _ _
  constructor
  case alive => exact h.alive.opened
  case once => exact h.sending.once.sublist (hpart.filterMap _)
  case resolved => exact fun k hk => h.arrival hk
  case complete =>
    intro hall k call hcall hphase
    rw [Link.arrivals, hall, List.take_length]
    exact (h.sending.resolved k).mpr ⟨call, hcall, hphase⟩
  case frames => exact h.frames
  case ordered => exact fun k call hcall hk i hi => h.ordered hcall hk hi
  case buffered => exact h.alive.counted
  case drains =>
    rw [Link.drained, reads_give _ h.alive rfl]
    exact h.frames

theorem sound_initial {near far : ChannelTransport} {o : ChannelTransportOptions}
    (hfar : ChannelTransport.create o = .ok far) :
    LinkSound near.maxMessageBytes far.maxFrameBytes (.between near far) := by
  have hnew : Alive far ∧ far.reassembler = .empty ∧ far.yielded ++ far.inbound = [] := by
    simp only [ChannelTransport.create, Outcome.bind_ok, Outcome.pure_ok] at hfar
    obtain ⟨_, -, _, -, _, -, rfl⟩ := hfar
    exact ⟨⟨rfl, rfl, rfl, fun _ => rfl⟩, rfl, rfl⟩
  obtain ⟨halive, htable, hframes⟩ := hnew
  constructor
  case nearLimit => rfl
  case farBound => rfl
  case sending =>
    constructor
    case sound => exact fun k call hcall => by cases hcall
    case held => exact fun k call hcall => by cases hcall
    case apart => exact fun i j a b ha => by cases ha
    case messages =>
      intro before message after hsplit
      exact absurd hsplit.symm (List.append_ne_nil_of_right_ne_nil _ (List.cons_ne_nil _ _))
    case once => exact List.nodup_nil
    case resolved =>
      intro k
      constructor
      · intro hmem
        cases hmem
      · intro hex
        obtain ⟨call, hcall, -⟩ := hex
        cases hcall
    case earlier => exact fun k call hcall => by cases hcall
  case alive => exact halive
  case delivered => exact Nat.le_refl 0
  case table => exact htable
  case frames => exact hframes

theorem channel_transport_runs {near far : ChannelTransport} {o : ChannelTransportOptions}
    (hfar : ChannelTransport.create o = .ok far) {inputs : List LinkInput}
    (hbudget : Runs.Meets Link.step Link.WithinBudget (.between near far) inputs)
    (hclear : Runs.Meets Link.step Link.OpensClear (.between near far) inputs) :
    (Runs.after Link.step (.between near far) inputs).Faithful := by
  have hboth := Runs.meets_and hbudget hclear
  have hsound : LinkSound near.maxMessageBytes far.maxFrameBytes
      (Runs.after Link.step (.between near far) inputs) :=
    Runs.invariant_of_meets (fun _ input h hinput => h.step input hinput) (sound_initial hfar) hboth
  exact hsound.faithful

end Links

instance (t : ChannelTransport) : (taken : Except FragmentError ChannelFragmentAdmission × Reassembler) →
    Decidable (AdmissionFits t taken)
  | (.ok .partialFrame, r) =>
    inferInstanceAs (Decidable (t.inboundBytes + r.pendingBytes ≤ t.maxInboundBytes))
  | (.ok (.frame frame), _) =>
    inferInstanceAs (Decidable (t.inboundBytes + frame.length ≤ t.maxInboundBytes))
  | (.error _, _) => .isTrue trivial

instance (t : ChannelTransport) (message : Bytes) : Decidable (FitsInbound t message) :=
  inferInstanceAs (Decidable (AdmissionFits t _))

instance (s : Link) : (input : LinkInput) → Decidable (s.WithinBudget input)
  | .deliver =>
    inferInstanceAs (Decidable (∀ message ∈ s.channel[s.delivered]?, FitsInbound s.far message.bytes))
  | .send .. => .isTrue trivial
  | .poll .. => .isTrue trivial
  | .put .. => .isTrue trivial
  | .abort _ => .isTrue trivial
  | .next => .isTrue trivial

instance (r : Reassembler) (opened id : ℕ) : Decidable (Spared r opened id) :=
  inferInstanceAs (Decidable (_ → _))

instance (bound : ℕ) (calls : List SendCall) (channel : List ChannelMessage) (call : SendCall) :
    Decidable (ClearToOpen bound calls channel call) :=
  inferInstanceAs (Decidable (_ ∧ _ ∧ _))

instance (s : Link) : (input : LinkInput) → Decidable (s.OpensClear input)
  | .put k true =>
    inferInstanceAs (Decidable (∀ call ∈ s.calls[k]?, call.phase = .writable →
      s.near.currentState = .opened → call.sent = 0 →
      ClearToOpen s.far.maxFrameBytes s.calls s.channel call))
  | .put _ false => .isTrue trivial
  | .send .. => .isTrue trivial
  | .poll .. => .isTrue trivial
  | .abort _ => .isTrue trivial
  | .deliver => .isTrue trivial
  | .next => .isTrue trivial

def laneOptions : ChannelTransportOptions := ⟨some 4096, none, some 8192, none, some 1037⟩

def lane : ChannelTransport :=
  ⟨4096, 8192, 8192, some 1037, .opened, none, .empty, 0, [], 0, false, 0, []⟩

def laneFrame (u : UInt8) : Bytes := List.replicate 1100 u

def putNext (k : ℕ) (accepted : Bool) : List LinkInput := [.poll k (some 0) false, .put k accepted]

def laneTurns : List LinkInput :=
  [.send (laneFrame 1) false, .send (laneFrame 2) false, .send (laneFrame 3) false,
    .send [4] false] ++ putNext 0 true ++ putNext 1 true ++ putNext 2 true ++ putNext 2 false ++
  putNext 1 true ++ putNext 3 true ++ putNext 0 true ++
  [.next, .deliver, .deliver, .deliver, .deliver, .deliver, .deliver]

theorem channel_transport_runs_overlapping :
    (Runs.after Link.step (.between lane lane) laneTurns).Faithful :=
  have hcreated : ChannelTransport.create laneOptions = .ok lane := by decide +kernel
  channel_transport_runs hcreated (by decide +kernel) (by decide +kernel)

def rejectedSends : List LinkInput :=
  [.send (laneFrame 1) false] ++ putNext 0 true ++
  [2, 3, 4, 5].flatMap (fun n => [.send (laneFrame (UInt8.ofNat n)) false] ++
    putNext (n - 1) true ++ putNext (n - 1) false) ++
  putNext 0 true ++ List.replicate 6 .deliver

theorem frames_not_yielded : ¬ ∀ inputs, Runs.Meets Link.step Link.WithinBudget
    (.between lane lane) inputs → (Runs.after Link.step (.between lane lane) inputs).Faithful := by
  intro h
  have hkept := h rejectedSends (by decide +kernel)
  have hfailed : (Runs.after Link.step (.between lane lane) rejectedSends).far.currentState =
      .failed := by decide +kernel
  cases hfailed.symm.trans hkept.alive

end Terminay.Remote
