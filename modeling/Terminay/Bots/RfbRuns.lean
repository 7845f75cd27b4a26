import Terminay.Bots.RfbFilter
import Terminay.Protocol.FragmentTransfers

/-!
# Runs of the filter of a desktop stream

What the filter forwards is made of the messages of the bytes that its pushes took in.
-/

namespace Terminay.Bots
open Script Protocol Framing
open Holder (uint32At)

variable {mode : BotDesktopMode} {b m rest : Bytes} {ms : List Bytes} {e : Str} {chunks : List Bytes}

/-! ## The loop reads messages -/

theorem filterLoop_waits (h : readMessage b = .ok none) : filterLoop mode b = (.ok [], b) := by
  rw [filterLoop]
  split
  · simp_all
  · rfl
  · simp_all

theorem filterLoop_refuses (h : readMessage b = .error e) : filterLoop mode b = (.error e, b) := by
  rw [filterLoop]
  split
  · simp_all
  · simp_all
  · simp_all

theorem filterLoop_message (h : readMessage b = .ok (some (m, rest))) :
    filterLoop mode b =
      ((filterLoop mode rest).1.map (mode.forwards m ++ ·), (filterLoop mode rest).2) := by
  rw [filterLoop]
  split
  · rename_i h'
    rw [h] at h'
    cases h'
  · rename_i h'
    rw [h] at h'
    cases h'
  · rename_i h'
    rw [h] at h'
    cases h'
    rfl

theorem filterLoop_returns (h : messageReader.drain b = .ok (ms, rest)) :
    filterLoop mode b = (.ok (ms.flatMap mode.forwards), rest) := by
  induction b using Reader.drain.induct messageReader generalizing ms with
  | case1 b e hread =>
    rw [Reader.drain_refuses hread] at h
    cases h
  | case2 b hread =>
    rw [Reader.drain_waits hread] at h
    cases h
    exact filterLoop_waits hread
  | case3 b m left hread ih =>
    rw [Reader.drain_frame hread, map_ok] at h
    obtain ⟨p, hp, hpair⟩ := h
    cases hpair
    rw [filterLoop_message hread, ih hp]
    rfl

theorem filterLoop_throws (h : messageReader.drain b = .error e) :
    (filterLoop mode b).1 = .error e := by
  induction b using Reader.drain.induct messageReader with
  | case1 b e' hread =>
    rw [Reader.drain_refuses hread] at h
    cases h
    rw [filterLoop_refuses hread]
  | case2 b hread =>
    rw [Reader.drain_waits hread] at h
    cases h
  | case3 b m left hread ih =>
    rw [Reader.drain_frame hread, map_error] at h
    rw [filterLoop_message hread, map_error]
    exact ih h

theorem messageSize_waits (h : messageSize b = .ok none) : b.length < 8 := by
  unfold messageSize at h
  split at h
  · simp
  · split at h
    all_goals try split_ifs at h
    all_goals first | omega | cases h

/-- The bytes of a message that is not there yet are few. -/
theorem waiting_short (h : readMessage b = .ok none) :
    b.length < 8 + BOT_DESKTOP_CLIPBOARD_BYTES := by
  obtain ⟨size, hsize, h⟩ := Outcome.bind_ok.mp h
  cases size with
  | none =>
    have hshort := messageSize_waits hsize
    omega
  | some n =>
    have hn := (messageSize_pos hsize).2
    by_contra hlong
    have hwhole := readMessage_whole hsize (by omega)
    dsimp only at h
    rw [if_neg (by omega)] at h
    obtain ⟨_, _, h⟩ := Outcome.bind_ok.mp h
    cases h

/-! ## Pushes -/

structure Feeds (mode : BotDesktopMode) (pending : Bytes) (chunks : List Bytes)
    (run : BotRfbClientFilter.Fed) (ms : List Bytes) (rest : Bytes) : Prop where
  messages : messageReader.drain (pending ++ run.pushed.flatten) = .ok (ms, rest)
  forwarded : run.forwarded = ms.flatMap mode.forwards
  whole : run.thrown = none → run.pushed = chunks
  thrown : ∀ e, run.thrown = some e → ∃ chunk later, chunks = run.pushed ++ chunk :: later ∧
    (BOT_STREAM_INPUT_BYTES < rest.length + chunk.length ∨
      messageReader.drain (pending ++ run.pushed.flatten ++ chunk) = .error e)

theorem feed_feeds (chunks : List Bytes) {f : BotRfbClientFilter}
    (hwaits : readMessage f.pending = .ok none) :
    ∃ ms rest, Feeds f.mode f.pending chunks (f.feed chunks) ms rest := by
  have hnone : messageReader.drain (f.pending ++ [].flatten) = .ok ([], f.pending) := by
    rw [List.flatten_nil, List.append_nil]
    exact Reader.drain_waits hwaits
  induction chunks generalizing f with
  | nil => exact ⟨[], f.pending, hnone, rfl, fun _ => rfl, nofun⟩
  | cons chunk chunks ih =>
    rw [BotRfbClientFilter.feed, BotRfbClientFilter.push]
    split_ifs with hlimit
    · exact ⟨[], f.pending, hnone, rfl, nofun,
        fun _ _ => ⟨chunk, chunks, rfl, .inl hlimit⟩⟩
    · cases hdrain : messageReader.drain (f.pending ++ chunk) with
      | error e =>
        dsimp only
        rw [filterLoop_throws hdrain]
        refine ⟨[], f.pending, hnone, rfl, nofun, ?_⟩
        intro e' he
        cases he
        refine ⟨chunk, chunks, rfl, .inr ?_⟩
        rw [List.flatten_nil, List.append_nil]
        exact hdrain
      | ok p =>
        obtain ⟨ms, left⟩ := p
        dsimp only
        rw [filterLoop_returns hdrain]
        dsimp only
        have hleft : readMessage left = .ok none := Reader.drain_left hdrain
        have hagain : messageReader.drain (left ++ [].flatten) = .ok ([], left) := by
          rw [List.flatten_nil, List.append_nil]
          exact Reader.drain_waits hleft
        obtain ⟨later, rest, h⟩ := ih (f := ⟨f.mode, left⟩) hleft hagain
        have happend : ∀ t, messageReader.drain (f.pending ++ (chunk ++ t)) =
            (messageReader.drain (left ++ t)).map fun p => (ms ++ p.1, p.2) := by
          intro t
          rw [← List.append_assoc]
          exact Reader.drain_append hdrain t
        refine ⟨ms ++ later, rest, ?_, ?_, ?_, ?_⟩
        · rw [List.flatten_cons, happend, h.messages]
          rfl
        · rw [List.flatMap_append, h.forwarded]
        · intro hthrown
          rw [h.whole hthrown]
        · intro e he
          obtain ⟨next, behind, hchunks, hwhy⟩ := h.thrown e he
          refine ⟨next, behind, congrArg (chunk :: ·) hchunks, hwhy.imp_right ?_⟩
          intro herror
          rw [List.flatten_cons, List.append_assoc, List.append_assoc, happend,
            ← List.append_assoc, herror]
          rfl

/-! ## What is forwarded -/

/-- The bytes are one message, whatever comes after them. -/
def Whole (m : Bytes) : Prop := ∀ t, readMessage (m ++ t) = .ok (some (m, t))

theorem messageSize_later {n : ℕ} {t : Bytes} (hnone : messageSize b = .ok none)
    (h : messageSize (b ++ t) = .ok (some n)) : b.length < n := by
  cases b with
  | nil => exact (messageSize_pos h).1
  | cons type b =>
    rw [List.cons_append] at h
    unfold messageSize at hnone h
    dsimp only at hnone h
    split at hnone
    all_goals try cases hnone
    · rename_i htwo
      simp only [htwo] at h
      split_ifs at hnone with hshort
      · split_ifs at h
        · cases h
        · have hn := Option.some.inj (Except.ok.inj h)
          omega
      · cases hnone
    · rename_i hsix
      simp only [hsix] at h
      split_ifs at hnone with hshort
      · split_ifs at h
        · cases h
        · have hn := Option.some.inj (Except.ok.inj h)
          omega
      · cases hnone

theorem messageSize_take {n : ℕ} (hsize : messageSize b = .ok (some n)) (hlength : n ≤ b.length) :
    messageSize (b.take n) = .ok (some n) := by
  rw [← List.take_append_drop n b] at hsize
  have htold : messageSize (b.take n) ≠ .ok none := by
    intro hnone
    have hshort := messageSize_later hnone hsize
    rw [List.length_take] at hshort
    omega
  rwa [messageSize_append htold] at hsize

theorem whole_message (h : readMessage b = .ok (some (m, rest))) : Whole m := by
  intro t
  obtain ⟨n, hsize, hlength, hcheck, rfl, rfl⟩ := readMessage_ok h
  have htake := messageSize_take hsize hlength
  have hn : (b.take n).length = n := by
    rw [List.length_take]
    omega
  have hsize' : messageSize (b.take n ++ t) = .ok (some n) := by
    rw [messageSize_append (by rw [htake]; simp), htake]
  rw [readMessage_whole hsize' (by simp; omega), List.take_left' hn, List.drop_left' hn, hcheck]
  rfl

theorem drained_whole (h : messageReader.drain b = .ok (ms, rest)) : ∀ m ∈ ms, Whole m := by
  induction b using Reader.drain.induct messageReader generalizing ms with
  | case1 b e hread =>
    rw [Reader.drain_refuses hread] at h
    cases h
  | case2 b hread =>
    rw [Reader.drain_waits hread] at h
    cases h
    intro m hm
    cases hm
  | case3 b m left hread ih =>
    rw [Reader.drain_frame hread, map_ok] at h
    obtain ⟨p, hp, hpair⟩ := h
    cases hpair
    intro m' hm'
    rcases List.mem_cons.mp hm' with rfl | hm'
    · exact whole_message hread
    · exact ih hp m' hm'

theorem drain_whole (h : ∀ m ∈ ms, Whole m) : messageReader.drain ms.flatten = .ok (ms, []) := by
  induction ms with
  | nil => exact Reader.drain_waits rfl
  | cons m ms ih =>
    have hread : messageReader.read (m ++ ms.flatten) = .ok (some (m, ms.flatten)) :=
      h m List.mem_cons_self ms.flatten
    rw [List.flatten_cons, Reader.drain_frame hread, ih fun m' hm' => h m' (List.mem_cons_of_mem _ hm')]
    rfl

theorem whole_encodings (h : Whole m) (htype : messageType m = 2) : getUint16 m 2 ≤ 64 := by
  have hread := h []
  rw [List.append_nil] at hread
  obtain ⟨n, hsize, -, -, -, -⟩ := readMessage_ok hread
  unfold messageSize at hsize
  split at hsize
  · cases hsize
  · rename_i type later
    have htwo : type.toNat = 2 := htype
    simp only [htwo] at hsize
    split_ifs at hsize with hshort hmany
    · cases hsize
    · exact not_lt.mp hmany

theorem flatMap_int32_length (l : List ℤ) : (l.flatMap int32).length = 4 * l.length := by
  induction l with
  | nil => rfl
  | cons e l ih =>
    rw [List.flatMap_cons, List.length_append, ih, List.length_cons]
    change 4 + 4 * l.length = 4 * (l.length + 1)
    omega

theorem allowedEncodings_whole (h : Whole m) (htype : messageType m = 2) :
    Whole (allowedEncodings m) := by
  intro t
  have hkept : (keptEncodings m).length ≤ 64 := by
    have hfilter := List.length_filter_le (· ∈ relayedEncodings)
      ((List.range (getUint16 m 2)).map fun i => int32At m (4 + i * 4))
    rw [List.length_map, List.length_range] at hfilter
    exact hfilter.trans (whole_encodings h htype)
  have hlength : (allowedEncodings m).length = 4 + 4 * (keptEncodings m).length := by
    have hbody := flatMap_int32_length (keptEncodings m)
    simp only [allowedEncodings, uint16, List.length_cons, List.length_append, hbody,
      List.length_nil]
  have hcount : getUint16 (allowedEncodings m ++ t) 2 = (keptEncodings m).length :=
    Protocol.getUint16_bytes (by omega)
  have hsize : messageSize (allowedEncodings m ++ t) =
      .ok (some (4 + 4 * (keptEncodings m).length)) := by
    change (if (allowedEncodings m ++ t).length < 4 then (.ok none : Except Str (Option ℕ)) else
      if 64 < getUint16 (allowedEncodings m ++ t) 2 then .error (js "too many RFB encodings")
      else .ok (some (4 + 4 * getUint16 (allowedEncodings m ++ t) 2))) = _
    rw [hcount, if_neg (by rw [List.length_append]; omega), if_neg (by omega)]
  rw [readMessage_whole hsize (by rw [List.length_append]; omega), List.take_left' hlength,
    List.drop_left' hlength]
  rfl

/-- The messages that a mode relays, changed or not. -/
def BotDesktopMode.relays (mode : BotDesktopMode) (m : Bytes) : Prop :=
  mode = .control ∨ messageType m ∈ [0, 2, 3]

instance (mode : BotDesktopMode) : DecidablePred mode.relays :=
  fun _ => inferInstanceAs (Decidable (_ ∨ _))

theorem forwards_unrelayed (h : ¬ mode.relays m) : mode.forwards m = [] := by
  simp only [BotDesktopMode.relays, List.mem_cons, List.not_mem_nil, or_false, not_or] at h
  rw [BotDesktopMode.forwards, if_neg h.2.2.1, if_neg (by tauto)]

theorem forwards_whole (h : Whole m) (hrelays : mode.relays m) : Whole (mode.forwards m) := by
  rw [BotDesktopMode.forwards]
  split_ifs with htype hkeeps
  · exact allowedEncodings_whole h htype
  · exact h
  · simp only [BotDesktopMode.relays, List.mem_cons, List.not_mem_nil, or_false] at hrelays
    tauto

theorem forwards_type (h : mode.relays m) : messageType (mode.forwards m) = messageType m := by
  rw [BotDesktopMode.forwards]
  split_ifs with htype hkeeps
  · rw [htype]
    rfl
  · rfl
  · simp only [BotDesktopMode.relays, List.mem_cons, List.not_mem_nil, or_false] at h
    tauto

theorem forwards_relayed (ms : List Bytes) :
    ms.flatMap mode.forwards = ((ms.filter (mode.relays ·)).map mode.forwards).flatten := by
  induction ms with
  | nil => rfl
  | cons m ms ih =>
    rw [List.flatMap_cons, ih]
    by_cases h : mode.relays m
    · rw [List.filter_cons_of_pos (by simpa using h), List.map_cons, List.flatten_cons]
    · rw [List.filter_cons_of_neg (by simpa using h), forwards_unrelayed h, List.nil_append]

/-! ## Streams -/

/-- The valid messages that the bytes begin with. -/
def clientMessages (b : Bytes) : List Bytes :=
  match messageReader.drain b with
  | .ok p => p.1
  | .error _ => []

/-- What a stream in these chunks makes of a new filter. -/
structure Filters (mode : BotDesktopMode) (chunks : List Bytes)
    (run : BotRfbClientFilter.Fed) : Prop where
  /-- The bytes taken in are valid messages and the start of one more. -/
  messages : ∃ rest, messageReader.drain run.pushed.flatten =
    .ok (clientMessages run.pushed.flatten, rest)
  forwarded : run.forwarded = (clientMessages run.pushed.flatten).flatMap mode.forwards
  whole : run.thrown = none → run.pushed = chunks
  /-- The push that throws makes the bytes malformed or is too long to keep. -/
  thrown : ∀ e, run.thrown = some e → ∃ chunk later, chunks = run.pushed ++ chunk :: later ∧
    (messageReader.drain (run.pushed.flatten ++ chunk) = .error e ∨
      BOT_STREAM_INPUT_BYTES < 8 + BOT_DESKTOP_CLIPBOARD_BYTES + chunk.length)
  malformed : ∀ e, messageReader.drain chunks.flatten = .error e → run.thrown ≠ none
  /-- In view-only mode no key, pointer or clipboard message is forwarded. -/
  viewOnly : ∃ ms, messageReader.drain run.forwarded = .ok (ms, []) ∧
    (mode = .viewOnly → ∀ m ∈ ms, messageType m ∈ [0, 2, 3])
  /-- Nor does what is forwarded depend on them. -/
  unseen : ∀ chunks', (clientMessages run.pushed.flatten).filter (mode.relays ·) =
      (clientMessages ((BotRfbClientFilter.new mode).feed chunks').pushed.flatten).filter
        (mode.relays ·) →
    run.forwarded = ((BotRfbClientFilter.new mode).feed chunks').forwarded

theorem feed_messages (mode : BotDesktopMode) (chunks : List Bytes) :
    ∃ rest, Feeds mode [] chunks ((BotRfbClientFilter.new mode).feed chunks)
      (clientMessages ((BotRfbClientFilter.new mode).feed chunks).pushed.flatten) rest := by
  obtain ⟨ms, rest, h⟩ := feed_feeds chunks (f := BotRfbClientFilter.new mode) rfl
  have hms : clientMessages ((BotRfbClientFilter.new mode).feed chunks).pushed.flatten = ms := by
    have hdrain := h.messages
    change messageReader.drain ((BotRfbClientFilter.new mode).feed chunks).pushed.flatten = _
      at hdrain
    rw [clientMessages, hdrain]
  rw [hms]
  exact ⟨rest, h⟩

theorem rfb_filter_runs (mode : BotDesktopMode) (chunks : List Bytes) :
    Filters mode chunks ((BotRfbClientFilter.new mode).feed chunks) := by
  obtain ⟨rest, h⟩ := feed_messages mode chunks
  have hwhole : ∀ m ∈ (clientMessages ((BotRfbClientFilter.new mode).feed
      chunks).pushed.flatten).filter (mode.relays ·), Whole m ∧ mode.relays m := by
    intro m hm
    obtain ⟨hmem, hrelays⟩ := List.mem_filter.mp hm
    exact ⟨drained_whole h.messages m hmem, by simpa using hrelays⟩
  exact {
    messages := ⟨rest, h.messages⟩
    forwarded := h.forwarded
    whole := h.whole
    thrown := by
      intro e he
      obtain ⟨chunk, later, hchunks, hlimit | herror⟩ := h.thrown e he
      · have hshort := waiting_short (Reader.drain_left h.messages)
        exact ⟨chunk, later, hchunks, .inr (by omega)⟩
      · exact ⟨chunk, later, hchunks, .inl herror⟩
    malformed := by
      intro e herror hnone
      have hdrain := h.messages
      rw [h.whole hnone, List.nil_append, herror] at hdrain
      cases hdrain
    viewOnly := by
      rw [h.forwarded, forwards_relayed]
      refine ⟨_, drain_whole ?_, ?_⟩
      · intro m' hm'
        obtain ⟨m, hm, rfl⟩ := List.mem_map.mp hm'
        exact forwards_whole (hwhole m hm).1 (hwhole m hm).2
      · intro hmode m' hm'
        obtain ⟨m, hm, rfl⟩ := List.mem_map.mp hm'
        have hrelays := (hwhole m hm).2
        rw [forwards_type hrelays]
        refine hrelays.resolve_left ?_
        rw [hmode]
        nofun
    unseen := by
      intro chunks' hsame
      obtain ⟨rest', h'⟩ := feed_messages mode chunks'
      rw [h.forwarded, h'.forwarded, forwards_relayed, forwards_relayed, hsame] }

def keyEvent : Bytes := [4, 1, 0, 0, 0, 0, 0, 65]

/-- A malformed message takes the messages before it in its push along. -/
theorem cut_decides : ¬ ∀ (mode : BotDesktopMode) (chunks chunks' : List Bytes),
    chunks.flatten = chunks'.flatten →
      ((BotRfbClientFilter.new mode).feed chunks).forwarded =
        ((BotRfbClientFilter.new mode).feed chunks').forwarded := by
  intro h
  have hsame := h .control [keyEvent ++ [9]] [keyEvent, [9]] rfl
  have hnine : messageReader.drain [9] = .error (js "unknown RFB client message") :=
    Reader.drain_refuses rfl
  have hone : messageReader.drain ([] ++ (keyEvent ++ [9])) =
      .error (js "unknown RFB client message") := by
    have hread : messageReader.read (keyEvent ++ [9]) = .ok (some (keyEvent, [9])) := rfl
    rw [List.nil_append, Reader.drain_frame hread, hnine]
    rfl
  have htwo : messageReader.drain ([] ++ keyEvent) = .ok ([keyEvent], []) := by
    have hread : messageReader.read keyEvent = .ok (some (keyEvent, [])) := rfl
    rw [List.nil_append, Reader.drain_frame hread, Reader.drain_waits rfl]
    rfl
  have hthrows : (filterLoop .control ([] ++ (keyEvent ++ [9]))).1 = .error _ :=
    filterLoop_throws hone
  have hreturns : filterLoop .control ([] ++ keyEvent) = (.ok _, []) := filterLoop_returns htwo
  have hfirst : ((BotRfbClientFilter.new .control).feed [keyEvent ++ [9]]).forwarded = [] := by
    rw [BotRfbClientFilter.feed, BotRfbClientFilter.push, if_neg (by decide)]
    dsimp only [BotRfbClientFilter.new]
    rw [hthrows]
  have hsecond : ∃ later,
      ((BotRfbClientFilter.new .control).feed [keyEvent, [9]]).forwarded = keyEvent ++ later := by
    rw [BotRfbClientFilter.feed, BotRfbClientFilter.push, if_neg (by decide)]
    dsimp only [BotRfbClientFilter.new]
    rw [hreturns]
    exact ⟨_, rfl⟩
  obtain ⟨later, hlater⟩ := hsecond
  rw [hfirst, hlater] at hsame
  cases hsame

end Terminay.Bots
