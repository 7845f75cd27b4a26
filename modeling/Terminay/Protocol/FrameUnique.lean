import Terminay.Protocol.Frame

/-!
# One frame for each envelope and body

An accepted frame is the encoding of what it decodes to unless its envelope's
bytes start with a byte order mark, and frames that agree on that mark are equal
when their envelopes and bodies are.
-/

namespace Terminay.Protocol
open Script Outcome

variable {ν : Type} [Engine ν]

theorem envelope_brace {envelope : Json ν} {fields : Fields ν} {type : EnvelopeType} {header : Bytes}
    (hvalid : validateEnvelope envelope = .ok (fields, type))
    (hheader : encodeCanonicalJson envelope = .ok header) : ∃ rest, header = 0x7B :: rest := by
  simp only [validateEnvelope, bind_ok, demand_ok] at hvalid
  obtain ⟨fields', hfields, -⟩ := hvalid
  cases envelope with
  | obj es =>
    have hplain : Paired [unit '\x7b'] := Paired.one (by decide)
    have hbrace : textEncode [unit '\x7b'] = [0x7B] := by decide
    rw [← (encode_ok.mp hheader).2, serialize_obj, List.cons_append, ← List.singleton_append,
      textEncode_append hplain, hbrace]
    exact ⟨_, rfl⟩
  | _ => cases hfields

theorem brace_unmarked (rest : Bytes) : ¬ byteOrderMark <+: 0x7B :: rest := by
  rintro ⟨tail, h⟩
  have hhead := (List.cons.inj h).1
  revert hhead
  decide

theorem Decoded.header_cases {limits : ProtocolLimits ν} {frame : Bytes} {d : DecodedFrame ν}
    {fields : Fields ν} {type : EnvelopeType} {header : Bytes}
    (h : Decoded limits frame d fields type header) :
    ∃ own, encodeCanonicalJson d.envelope = .ok own ∧
      (byteOrderMark <+: frame.drop frameHeaderBytes ∧ header = byteOrderMark ++ own ∨
        ¬ byteOrderMark <+: frame.drop frameHeaderBytes ∧ header = own) := by
  have hdrop : frame.drop frameHeaderBytes = header ++ d.body := by
    rw [h.bytes]
    rfl
  obtain ⟨own, hown, hcases⟩ := decode_reencodes h.envelope
  refine ⟨own, hown, ?_⟩
  rw [hdrop]
  rcases hcases with ⟨-, hheader⟩ | ⟨-, hheader⟩
  · left
    refine ⟨?_, hheader⟩
    rw [hheader, List.append_assoc]
    exact List.prefix_append _ _
  · right
    obtain ⟨rest, hrest⟩ := envelope_brace h.valid hown
    refine ⟨?_, hheader⟩
    rw [hheader, hrest, List.cons_append]
    exact brace_unmarked _

theorem alike_text {s : Str} {j : Json ν} (h : alike (.str s) j = true) : j = .str s := by
  cases j with
  | str t =>
    rw [alike, beq_iff_eq] at h
    rw [h]
  | _ => simp [alike] at h

theorem alike_type {a b : Json ν} {s t : Fields ν} {type type' : EnvelopeType} (h : alike a b = true)
    (ha : validateEnvelope a = .ok (s, type)) (hb : validateEnvelope b = .ok (t, type')) :
    type = type' := by
  simp only [validateEnvelope, bind_ok, demand_ok] at ha hb
  obtain ⟨s', hs, type₁, htype₁, u, -, u', -, heq⟩ := ha
  obtain ⟨t', ht, type₂, htype₂, v, -, v', -, heq'⟩ := hb
  obtain ⟨rfl, rfl⟩ := Prod.mk.inj (Except.ok.inj heq)
  obtain ⟨rfl, rfl⟩ := Prod.mk.inj (Except.ok.inj heq')
  cases a with
  | obj es =>
    cases b with
    | obj fs =>
      cases hs
      cases ht
      rw [alike_obj] at h
      rw [envelopeType?, Option.bind_eq_some_iff] at htype₁
      obtain ⟨text, htext, hname⟩ := htype₁
      rw [Option.bind_eq_some_iff] at htext
      obtain ⟨j, hj, hstr⟩ := htext
      cases j with
      | str text' =>
        cases hstr
        obtain ⟨j', hj', halike⟩ := h.2 _ (ofEntries_mem hj)
        rw [alike_text halike] at hj'
        have htype : envelopeType? (Table.ofEntries fs) = EnvelopeType.ofText text := by
          rw [envelopeType?, Fields.at, hj']
          rfl
        rw [htype, hname] at htype₂
        exact Option.some.inj htype₂
      | _ => cases hstr
    | _ => cases ht
  | _ => cases hs

theorem alike_encode {a b : Json ν} (ha : distinctKeys a = true) (hb : distinctKeys b = true)
    (h : alike a b = true) {header header' : Bytes} (hheader : encodeCanonicalJson a = .ok header)
    (hheader' : encodeCanonicalJson b = .ok header') : header = header' := by
  rw [← (encode_ok.mp hheader).2, ← (encode_ok.mp hheader').2, alike_serialize a b ha hb h]

theorem accepted_unique :
    (∀ (bytes : Bytes) (value : Json ν), decodeCanonicalJson bytes = .ok value →
      (encodeCanonicalJson value = .ok bytes ↔ ¬ byteOrderMark <+: bytes)) ∧
    (∀ (limits : ProtocolLimits ν) (frame : Bytes) (d : DecodedFrame ν),
      decodeFrame limits frame = .ok d →
      (encodeFrame limits d.envelope d.body = .ok frame ↔
        ¬ byteOrderMark <+: frame.drop frameHeaderBytes)) ∧
    ∀ (limits limits' : ProtocolLimits ν) (frame frame' : Bytes) (d d' : DecodedFrame ν),
      decodeFrame limits frame = .ok d → decodeFrame limits' frame' = .ok d' →
      alike d.envelope d'.envelope = true → d.body = d'.body →
      (frame = frame' ↔ (byteOrderMark <+: frame.drop frameHeaderBytes ↔
        byteOrderMark <+: frame'.drop frameHeaderBytes)) := by
  have hlonger : ∀ own : Bytes, byteOrderMark ++ own ≠ own := by
    intro own h
    have hlength := congrArg List.length h
    simp only [byteOrderMark, List.length_append, List.length_cons, List.length_nil] at hlength
    omega
  refine ⟨?_, ?_, ?_⟩
  · intro bytes value hdecode
    obtain ⟨own, hown, hcases⟩ := decode_reencodes hdecode
    rw [hown, Except.ok.injEq]
    rcases hcases with ⟨hmark, hbytes⟩ | ⟨hmark, hbytes⟩
    · exact ⟨fun h => absurd (hbytes.symm.trans h.symm) (hlonger own), fun h => absurd hmark h⟩
    · exact ⟨fun _ => hmark, fun _ => hbytes.symm⟩
  · intro limits frame d hdecode
    obtain ⟨fields, type, header, hd⟩ := decoded_of_decodeFrame hdecode
    obtain ⟨own, hown, hcases⟩ := hd.header_cases
    rcases hcases with ⟨hmark, hheader⟩ | ⟨hmark, hheader⟩
    · refine ⟨fun hencode => ?_, fun h => absurd hmark h⟩
      obtain ⟨fields', type', header', he⟩ := encodeFrame_ok.mp hencode
      have hsame : frameBytes type'.kind header' d.body = frameBytes type.kind header d.body := by
        rw [← he.bytes, ← hd.bytes]
      obtain ⟨-, hheader', -⟩ := frameBytes_inj hsame hd.headerShort hd.bodyShort
      rw [he.encodes, Except.ok.injEq] at hown
      rw [hheader', hheader] at hown
      exact absurd hown (hlonger own)
    · refine ⟨fun _ => hmark, fun _ => encodeFrame_ok.mpr ⟨fields, type, header, ?_⟩⟩
      exact ⟨hd.valid, hd.declared, hheader ▸ hown, hd.headerFits, hd.bodyFits, hd.fits, hd.bytes⟩
  · intro limits limits' frame frame' d d' hdecode hdecode' halike hbody
    refine ⟨fun h => by rw [h], fun hmarks => ?_⟩
    obtain ⟨fields, type, header, hd⟩ := decoded_of_decodeFrame hdecode
    obtain ⟨fields', type', header', hd'⟩ := decoded_of_decodeFrame hdecode'
    obtain ⟨own, hown, hcases⟩ := hd.header_cases
    obtain ⟨own', hown', hcases'⟩ := hd'.header_cases
    have hsame : own = own' := alike_encode (decode_distinct hd.envelope) (decode_distinct hd'.envelope)
      halike hown hown'
    have hheader : header = header' := by
      rcases hcases with ⟨hmark, h⟩ | ⟨hmark, h⟩ <;> rcases hcases' with ⟨hmark', h'⟩ | ⟨hmark', h'⟩
      · rw [h, h', hsame]
      · exact absurd (hmarks.mp hmark) hmark'
      · exact absurd (hmarks.mpr hmark') hmark
      · rw [h, h', hsame]
    rw [hd.bytes, hd'.bytes, alike_type halike hd.valid hd'.valid, hheader, hbody]

def emptyObject : Bytes := [0x7B, 0x7D]

theorem emptyObject_decodes : decodeCanonicalJson emptyObject = .ok (.obj [] : Json ℤ) := by
  have hencode : encodeCanonicalJson (.obj [] : Json ℤ) = .ok emptyObject := by decide +kernel
  exact (decode_encoded ⟨.obj [], rfl⟩ hencode (.obj [])).mpr ⟨rfl, rfl⟩

theorem emptyObject_unique :
    (encodeCanonicalJson (.obj [] : Json ℤ) = .ok emptyObject ↔ ¬ byteOrderMark <+: emptyObject) ∧
    (encodeFrame noLimits (rebuilt cancelEnvelope.json) [7] =
        .ok (frameBytes .control cancelHeader [7]) ↔
      ¬ byteOrderMark <+: (frameBytes .control cancelHeader [7]).drop frameHeaderBytes) ∧
    (frameBytes .control cancelHeader [7] = frameBytes .control cancelHeader [7] ↔
      (byteOrderMark <+: (frameBytes .control cancelHeader [7]).drop frameHeaderBytes ↔
        byteOrderMark <+: (frameBytes .control cancelHeader [7]).drop frameHeaderBytes)) := by
  have hencode : encodeFrame noLimits cancelEnvelope.json [7] =
      .ok (frameBytes .control cancelHeader [7]) := by decide +kernel
  have hframe := decodeFrame_encoded noLimits cancelEnvelope hencode (by decide) (by decide +kernel)
    (by decide)
  exact ⟨accepted_unique.1 emptyObject (.obj []) emptyObject_decodes,
    accepted_unique.2.1 noLimits _ _ hframe,
    accepted_unique.2.2 noLimits noLimits _ _ _ _ hframe hframe (by decide +kernel) rfl⟩

/-- A byte order mark before the text is accepted and lost. -/
theorem marked_object_accepted :
    decodeCanonicalJson (byteOrderMark ++ emptyObject) = .ok (.obj [] : Json ℤ) ∧
      encodeCanonicalJson (.obj [] : Json ℤ) ≠ .ok (byteOrderMark ++ emptyObject) := by
  have htext : textDecode (byteOrderMark ++ emptyObject) = some (js "\x7b\x7d") := by
    have hbytes : (byteOrderMark ++ emptyObject).toByteArray = ['\uFEFF', '\x7b', '\x7d'].utf8Encode := by
      decide
    rw [textDecode, hbytes, List.utf8Decode?_utf8Encode]
    rfl
  refine ⟨decode_ok.mpr ⟨_, htext, by decide +kernel, by decide +kernel⟩, ?_⟩
  decide +kernel

end Terminay.Protocol
