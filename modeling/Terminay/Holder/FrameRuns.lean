import Terminay.Holder.Frames
import Terminay.Protocol.JsonText

/-!
# A stream of frames in chunks

However the bytes of the frames are cut into chunks, the decoder answers each frame once its last
byte has arrived.
-/

namespace Terminay.Holder
open Script Protocol Outcome Framing

variable {ν : Type} [Engine ν]

structure SentFrame (ν : Type) [Engine ν] where
  message : HolderMessage ν
  payload : Bytes
  bytes : Bytes
  encoded : encodeHolderFrame message payload = .ok bytes

def SentFrame.frame (e : SentFrame ν) : HolderFrame ν := ⟨e.message.json.parsed, e.payload⟩

def stream (sent : List (SentFrame ν)) : Bytes := (sent.map (·.bytes)).flatten

def delivered (sent : List (SentFrame ν)) (s : Bytes) :
    List (HolderFrame ν) × HolderFrameDecoder :=
  let some := arrived (sent.map fun e => (e.frame, e.bytes)) s
  (some.1, ⟨some.2⟩)

structure AcceptedFrame (ν : Type) [Engine ν] where
  header : Bytes
  frame : HolderFrame ν
  accepted : Accepts header frame.payload frame.message

def AcceptedFrame.bytes (a : AcceptedFrame ν) : Bytes := frameLayout a.header a.frame.payload

/-- What no frame can begin with, or a complete frame that is not well formed. -/
def Malformed (ν : Type) [Engine ν] (s : Bytes) : Prop :=
  4 ≤ s.length ∧
    (InRange (uint32At s 0) → 4 + uint32At s 0 ≤ s.length ∧
      ∀ a : AcceptedFrame ν, ¬ a.bytes <+: s)

omit [Engine ν] in
theorem lookup_parsed (fields : List (Str × Json ν)) (key : Str) :
    (fields.map fun e => (e.1, e.2.parsed)).lookup key = (fields.lookup key).map Json.parsed := by
  induction fields with
  | nil => rfl
  | cons e es ih =>
    rw [List.map_cons, List.lookup_cons, List.lookup_cons, ih]
    split <;> rfl

theorem length_frameLayout (header payload : Bytes) :
    (frameLayout header payload).length = 8 + header.length + payload.length := by
  simp only [frameLayout, uint32, List.length_append, List.length_cons, List.length_nil]

theorem uint32At_frameLayout {header payload : Bytes} {message : Json (Numeric ν)}
    (h : Accepts header payload message) (t : Bytes) :
    uint32At (frameLayout header payload ++ t) 0 = 4 + header.length + payload.length := by
  have hheader := h.headerFits
  have hpayload := h.payloadFits
  unfold maxHeaderBytes at hheader
  unfold maxPayloadBytes at hpayload
  unfold frameLayout
  simp only [List.append_assoc]
  exact uint32At_uint32 (by omega) _

theorem frameLayout_content (header payload t : Bytes) :
    ((frameLayout header payload ++ t).drop 4).take (4 + header.length + payload.length) =
      uint32 header.length ++ header ++ payload := by
  have hdrop : (frameLayout header payload ++ t).drop 4 =
      uint32 header.length ++ header ++ payload ++ t := by
    simp only [frameLayout, List.append_assoc]
    rfl
  rw [hdrop]
  refine List.take_left' ?_
  simp only [uint32, List.length_append, List.length_cons, List.length_nil]

theorem readFrame_accepted (a : AcceptedFrame ν) (t : Bytes) :
    readFrame (a.bytes ++ t) = .ok (some (a.frame, t)) := by
  have hheader := a.accepted.headerFits
  have hpayload := a.accepted.payloadFits
  have hat : uint32At (a.bytes ++ t) 0 = 4 + a.header.length + a.frame.payload.length :=
    uint32At_frameLayout a.accepted t
  have hlength : a.bytes.length = 8 + a.header.length + a.frame.payload.length :=
    length_frameLayout _ _
  have hrange : InRange (uint32At (a.bytes ++ t) 0) := by
    rw [hat]
    unfold InRange maxFrameBytes
    omega
  have hopen : openFrame (((a.bytes ++ t).drop 4).take (uint32At (a.bytes ++ t) 0)) =
      .ok a.frame := by
    rw [hat, AcceptedFrame.bytes, frameLayout_content]
    refine (openFrame_ok ?_).mpr ⟨a.header, rfl, a.accepted⟩
    rw [List.append_assoc, List.length_append]
    exact Nat.le_add_right 4 _
  rw [readFrame_whole hrange (by rw [hat, List.length_append]; omega), hopen, hat,
    List.drop_left' (by rw [hlength]; omega)]
  rfl

theorem readFrame_ok {s rest : Bytes} {f : HolderFrame ν} : readFrame s = .ok (some (f, rest)) ↔
    ∃ a : AcceptedFrame ν, a.frame = f ∧ s = a.bytes ++ rest := by
  constructor
  · intro h
    rcases readFrame_cases s with hc | ⟨hc, hr⟩ | ⟨hc, hr, hp⟩ | ⟨hr, hw⟩
    · rw [readFrame_short hc] at h
      cases h
    · rw [readFrame_range hc hr] at h
      cases h
    · rw [readFrame_part hc hr hp] at h
      cases h
    · rw [readFrame_whole hr hw, map_ok] at h
      obtain ⟨f', hopen, hf⟩ := h
      cases hf
      have htake : ((s.drop 4).take (uint32At s 0)).length = uint32At s 0 := by
        rw [List.length_take, List.length_drop]
        omega
      have hpos := hr.1
      obtain ⟨header, hcontent, haccepts⟩ := (openFrame_ok (by omega)).mp hopen
      refine ⟨⟨header, f, haccepts⟩, rfl, ?_⟩
      have htotal := congrArg List.length hcontent
      rw [htake, List.length_append, List.length_append] at htotal
      have hsum : 4 + header.length + f.payload.length = uint32At s 0 := htotal.symm
      have hlayout : frameLayout header f.payload =
          uint32 (uint32At s 0) ++ (s.drop 4).take (uint32At s 0) := by
        rw [hcontent, ← hsum]
        simp only [frameLayout, List.append_assoc]
      rw [AcceptedFrame.bytes, hlayout, ← List.drop_drop, List.append_assoc, List.take_append_drop]
      exact uint32_uint32At (by omega)
  · rintro ⟨a, rfl, rfl⟩
    exact readFrame_accepted a rest

theorem malformed_iff {s : Bytes} :
    (∃ e, (readFrame s : Except Str (Option (HolderFrame ν × Bytes))) = .error e) ↔
      Malformed ν s := by
  unfold Malformed
  rcases readFrame_cases s with hc | ⟨hc, hr⟩ | ⟨hc, hr, hp⟩ | ⟨hr, hw⟩
  · rw [readFrame_short hc]
    simp
    omega
  · rw [readFrame_range hc hr]
    simp [hc, hr]
  · rw [readFrame_part hc hr hp]
    simp [hr]
    omega
  · have hpos := hr.1
    constructor
    · rintro ⟨e, he⟩
      refine ⟨by omega, fun _ => ⟨hw, ?_⟩⟩
      rintro a ⟨t, rfl⟩
      rw [readFrame_accepted] at he
      cases he
    · rintro ⟨-, h⟩
      obtain ⟨-, hnone⟩ := h hr
      rw [readFrame_whole hr hw]
      cases hopen : (openFrame ((s.drop 4).take (uint32At s 0)) : Except Str (HolderFrame ν)) with
      | error e => exact ⟨e, rfl⟩
      | ok f =>
        have hread : readFrame s = .ok (some (f, s.drop (4 + uint32At s 0))) := by
          rw [readFrame_whole hr hw, hopen]
          rfl
        obtain ⟨a, -, hs⟩ := readFrame_ok.mp hread
        exact absurd ⟨_, hs.symm⟩ (hnone a)

theorem accepted_codes (a : AcceptedFrame ν) : (frameReader ν).Codes a.frame a.bytes where
  taken := readFrame_accepted a
  awaited s hs hne := by
    obtain ⟨t, ht⟩ := hs
    have hlength : a.bytes.length = 8 + a.header.length + a.frame.payload.length :=
      length_frameLayout _ _
    have hpart : s.length < a.bytes.length := by
      rw [← ht, List.length_append]
      have htail : t ≠ [] := by
        rintro rfl
        exact hne (by rw [← ht, List.append_nil])
      have hpos := List.length_pos_iff.mpr htail
      omega
    rcases Nat.lt_or_ge s.length 4 with hc | hc
    · exact readFrame_short hc
    · have hat : uint32At s 0 = 4 + a.header.length + a.frame.payload.length := by
        have hwhole := uint32At_frameLayout a.accepted []
        rw [List.append_nil] at hwhole
        rw [← uint32At_append (by omega) t, ht]
        exact hwhole
      have hheader := a.accepted.headerFits
      have hpayload := a.accepted.payloadFits
      refine readFrame_part hc ?_ (by omega)
      unfold InRange maxFrameBytes
      omega

section Decoder

variable {d : HolderFrameDecoder}

theorem pushAll_feed (chunks : List Bytes) : (d.pushAll chunks : Except Str (List (HolderFrame ν) × _)) =
    ((frameReader ν).feed d.buffered chunks).map fun p => (p.1, ⟨p.2⟩) := by
  induction chunks generalizing d with
  | nil => rfl
  | cons chunk chunks ih =>
    rw [HolderFrameDecoder.pushAll, HolderFrameDecoder.push, Reader.feed]
    unfold HolderFrameDecoder.taken
    cases (frameReader ν).drain (d.buffered ++ chunk) with
    | error e => rfl
    | ok p =>
      dsimp only
      rw [ih]
      cases (frameReader ν).feed p.2 chunks <;> rfl

theorem pushAll_drain (chunks : List Bytes) :
    (HolderFrameDecoder.new.pushAll chunks : Except Str (List (HolderFrame ν) × _)) =
      ((frameReader ν).drain chunks.flatten).map fun p => (p.1, ⟨p.2⟩) := by
  rw [pushAll_feed, HolderFrameDecoder.new, (frameReader ν).feed_flatten chunks (frameReader ν).idle,
    List.nil_append]

end Decoder

theorem drain_accepted {s rest : Bytes} {frames : List (HolderFrame ν)}
    (h : (frameReader ν).drain s = .ok (frames, rest)) :
    ∃ accepted : List (AcceptedFrame ν), frames = accepted.map (·.frame) ∧
      s = accepted.flatMap (·.bytes) ++ rest := by
  induction s using Reader.drain.induct (frameReader ν) generalizing frames with
  | case1 s e hread =>
    rw [Reader.drain_refuses hread] at h
    cases h
  | case2 s hread =>
    rw [Reader.drain_waits hread] at h
    cases h
    exact ⟨[], rfl, rfl⟩
  | case3 s f left hread ih =>
    rw [Reader.drain_frame hread, map_ok] at h
    obtain ⟨p, hp, hpair⟩ := h
    cases hpair
    obtain ⟨a, rfl, rfl⟩ := readFrame_ok.mp hread
    obtain ⟨accepted, hframes, hleft⟩ := ih hp
    refine ⟨a :: accepted, by rw [List.map_cons, ← hframes], ?_⟩
    rw [List.flatMap_cons, List.append_assoc, ← hleft]

theorem drain_malformed {s : Bytes} : (∃ e, (frameReader ν).drain s = .error e) ↔
    ∃ (accepted : List (AcceptedFrame ν)) (rest : Bytes),
      s = accepted.flatMap (·.bytes) ++ rest ∧ Malformed ν rest := by
  constructor
  · rintro ⟨e, h⟩
    induction s using Reader.drain.induct (frameReader ν) with
    | case1 s e' hread => exact ⟨[], s, rfl, malformed_iff.mp ⟨e', hread⟩⟩
    | case2 s hread =>
      rw [Reader.drain_waits hread] at h
      cases h
    | case3 s f left hread ih =>
      rw [Reader.drain_frame hread, map_error] at h
      obtain ⟨a, rfl, rfl⟩ := readFrame_ok.mp hread
      obtain ⟨accepted, rest, hleft, hrest⟩ := ih h
      exact ⟨a :: accepted, rest, by rw [List.flatMap_cons, List.append_assoc, ← hleft], hrest⟩
  · rintro ⟨accepted, rest, rfl, hrest⟩
    induction accepted with
    | nil =>
      obtain ⟨e, hread⟩ := malformed_iff.mpr hrest
      exact ⟨e, Reader.drain_refuses hread⟩
    | cons a accepted ih =>
      obtain ⟨e, hmore⟩ := ih
      refine ⟨e, ?_⟩
      rw [List.flatMap_cons, List.append_assoc,
        Reader.drain_frame ((accepted_codes a).taken _), hmore]
      rfl

theorem waiting_short {s : Bytes}
    (h : (readFrame s : Except Str (Option (HolderFrame ν × Bytes))) = .ok none) :
    s.length < 4 + maxFrameBytes := by
  rcases readFrame_cases s with hc | ⟨hc, hr⟩ | ⟨hc, hr, hp⟩ | ⟨hr, hw⟩
  · omega
  · rw [readFrame_range hc hr] at h
    cases h
  · have hle := hr.2
    omega
  · rw [readFrame_whole hr hw, map_ok] at h
    obtain ⟨f, -, hf⟩ := h
    cases hf

variable [LawfulEngine ν]

theorem SentFrame.accepts (e : SentFrame ν) :
    ∃ a : AcceptedFrame ν, a.frame = e.frame ∧ a.bytes = e.bytes := by
  have h := e.encoded
  simp only [encodeHolderFrame, bind_ok, refuseIf_ok] at h
  obtain ⟨-, hheader, -, hpayload, hbytes⟩ := h
  have hdecoded : textDecode (textEncode e.message.json.stringify) =
      some e.message.json.stringify := decode_stringify _
  have hparsed : parseHeader (textEncode e.message.json.stringify) =
      some e.message.json.parsed := by
    rw [parseHeader, hdecoded, Option.bind_some]
    exact parse_stringify e.message.distinct
  have htyped : hasType e.message.json.parsed = true := by
    rw [HolderMessage.json, Json.parsed, Json.mapNumbers, mapFields_map]
    have hlookup := lookup_parsed e.message.fields (js "type")
    rw [e.message.typed] at hlookup
    unfold Json.parsed at hlookup
    rw [hasType, hlookup]
    rfl
  refine ⟨⟨_, e.frame, by omega, by simpa [SentFrame.frame] using hpayload, hparsed, htyped⟩, rfl, ?_⟩
  exact Except.ok.inj hbytes

/-- What the decoder makes of a stream in chunks: it delivers what was sent as it arrives, and takes
of any stream the well-formed frames, keeps less than one frame, and throws where a frame is
malformed. -/
theorem frames_delivered (ν : Type) [Engine ν] [LawfulEngine ν] (chunks : List Bytes) :
    (∀ sent : List (SentFrame ν), chunks.flatten <+: stream sent →
      HolderFrameDecoder.new.pushAll chunks = .ok (delivered sent chunks.flatten)) ∧
    (∀ sent : List (SentFrame ν), chunks.flatten = stream sent →
      HolderFrameDecoder.new.pushAll chunks =
        .ok (sent.map (·.frame), HolderFrameDecoder.new)) ∧
    (∀ (frames : List (HolderFrame ν)) (d : HolderFrameDecoder),
      HolderFrameDecoder.new.pushAll chunks = .ok (frames, d) →
      (∃ accepted : List (AcceptedFrame ν), frames = accepted.map (·.frame) ∧
        chunks.flatten = accepted.flatMap (·.bytes) ++ d.buffered) ∧
      ∀ chunk, (d.taken chunk).length < 4 + maxFrameBytes + chunk.length) ∧
    ((∃ e, (HolderFrameDecoder.new.pushAll chunks : Except Str (List (HolderFrame ν) × _)) =
        .error e) ↔
      ∃ (accepted : List (AcceptedFrame ν)) (rest : Bytes),
        chunks.flatten = accepted.flatMap (·.bytes) ++ rest ∧ Malformed ν rest) := by
  have hdelivered : ∀ sent : List (SentFrame ν), chunks.flatten <+: stream sent →
      HolderFrameDecoder.new.pushAll chunks = .ok (delivered sent chunks.flatten) := by
    intro sent hprefix
    have hcodes : ∀ e ∈ sent.map fun e => (e.frame, e.bytes), (frameReader ν).Codes e.1 e.2 := by
      intro e he
      obtain ⟨e, -, rfl⟩ := List.mem_map.mp he
      obtain ⟨a, hframe, hbytes⟩ := e.accepts
      rw [← hframe, ← hbytes]
      exact accepted_codes a
    rw [pushAll_drain, Reader.drain_coded hcodes (by rw [List.map_map]; exact hprefix)]
    rfl
  refine ⟨hdelivered, ?_, ?_, ?_⟩
  · intro sent hall
    have hcodes : stream sent = ((sent.map fun e => (e.frame, e.bytes)).map (·.2)).flatten := by
      rw [List.map_map]
      rfl
    rw [hdelivered sent (hall ▸ List.prefix_refl _), delivered, hall, hcodes, arrived_all,
      List.map_map]
    rfl
  · intro frames d h
    rw [pushAll_drain, map_ok] at h
    obtain ⟨p, hp, hpair⟩ := h
    cases hpair
    refine ⟨drain_accepted hp, fun chunk => ?_⟩
    have hleft : p.2.length < 4 + maxFrameBytes := waiting_short (Reader.drain_left hp)
    rw [HolderFrameDecoder.taken, List.length_append]
    exact Nat.add_lt_add_right hleft chunk.length
  · rw [pushAll_drain, ← drain_malformed]
    exact exists_congr fun e => map_error

def drainMessage : HolderMessage ℤ := ⟨[(js "type", .str (js "drain"))], js "drain", rfl, rfl⟩

def drainFrame : SentFrame ℤ where
  message := drainMessage
  payload := [1, 2, 3]
  bytes := frameLayout (textEncode (js "\x7b\"type\":\"drain\"\x7d")) [1, 2, 3]
  encoded := rfl

theorem frames_delivered_integers :
    HolderFrameDecoder.new.pushAll [[], drainFrame.bytes.take 5, drainFrame.bytes.drop 5] =
      .ok ([drainFrame.frame], HolderFrameDecoder.new) := by
  have hall := (frames_delivered ℤ [[], drainFrame.bytes.take 5, drainFrame.bytes.drop 5]).2.1
    [drainFrame] (by simp [stream])
  exact hall

def spacedText : Str := unit ' ' :: drainMessage.json.stringify

theorem spaced_parses : parseHeader (textEncode spacedText) = some drainMessage.json.parsed := by
  have hpaired : Paired spacedText := Paired.cons (by decide) (stringify_paired _)
  have hread := readValue_stringify drainMessage.json drainMessage.distinct spacedText.length
    (Nat.le_succ _) [] delimited_nil
  have hskip : skipSpace spacedText = drainMessage.json.stringify := by
    have hrest := skipSpace_stringify drainMessage.json []
    rw [List.append_nil] at hrest
    exact hrest
  rw [List.append_nil] at hread
  rw [parseHeader, textDecode_textEncode hpaired (by decide), Option.bind_some, Json.parse, hskip,
    hread]
  rfl

def spaced : AcceptedFrame ℤ where
  header := textEncode spacedText
  frame := ⟨drainMessage.json.parsed, []⟩
  accepted := ⟨by decide +kernel, Nat.zero_le _, spaced_parses, by decide +kernel⟩

theorem sent_brace (e : SentFrame ℤ) : e.bytes[8]? = some 0x7B := by
  have h := e.encoded
  simp only [encodeHolderFrame, bind_ok, refuseIf_ok] at h
  obtain ⟨-, -, -, -, hbytes⟩ := h
  have hbrace : textEncode [unit '\x7b'] = [0x7B] := by decide +kernel
  have hone : Paired [unit '\x7b'] := Paired.one (by decide)
  have hheader := textEncode_append hone (stringifyFields e.message.fields ++ [unit '\x7d'])
  have hlayout : e.bytes = frameLayout (textEncode e.message.json.stringify) e.payload :=
    (Except.ok.inj hbytes).symm
  rw [hbrace] at hheader
  rw [hlayout, HolderMessage.json, Json.stringify, List.cons_append, ← List.singleton_append,
    hheader]
  rfl

/-- The decoder answers a header in other JSON text than the encoder's, instead of throwing. -/
theorem spaced_accepted : ¬ ∀ chunks : List Bytes,
    (∀ sent : List (SentFrame ℤ), ¬ chunks.flatten <+: stream sent) →
      ∃ e, (HolderFrameDecoder.new.pushAll chunks : Except Str (List (HolderFrame ℤ) × _)) =
        .error e := by
  intro h
  have hspace : [spaced.bytes].flatten[8]? = some 0x20 := by
    have hheader := textEncode_append (Paired.one (show isSurrogate (unit ' ') = false by decide))
      drainMessage.json.stringify
    rw [show textEncode [unit ' '] = [0x20] by decide +kernel] at hheader
    rw [List.flatten_singleton]
    change (frameLayout (textEncode ([unit ' '] ++ drainMessage.json.stringify)) [])[8]? = _
    rw [hheader]
    rfl
  obtain ⟨e, he⟩ := h [spaced.bytes] (by
    rintro sent ⟨t, ht⟩
    have hlength : 8 < [spaced.bytes].flatten.length := (List.getElem?_eq_some_iff.mp hspace).1
    have hsame := congrArg (·[8]?) ht
    rw [List.getElem?_append_left hlength, hspace] at hsame
    rcases sent with _ | ⟨e, sent⟩
    · cases hsame
    · have hbrace := sent_brace e
      have hlong : 8 < e.bytes.length := (List.getElem?_eq_some_iff.mp hbrace).1
      rw [stream, List.map_cons, List.flatten_cons, List.getElem?_append_left hlong, hbrace] at hsame
      cases hsame)
  have haccepted : (frameReader ℤ).drain [spaced.bytes].flatten = .ok ([spaced.frame], []) := by
    have hread := Reader.drain_frame ((accepted_codes spaced).taken [])
    rw [Reader.drain_waits (frameReader ℤ).idle, List.append_nil] at hread
    rw [List.flatten_singleton]
    exact hread
  rw [pushAll_drain, haccepted] at he
  cases he

end Terminay.Holder
