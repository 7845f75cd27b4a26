import Terminay.Protocol.JsonUnique
import Terminay.Script.Integers

/-!
# Frames

A frame is fourteen bytes of preamble, the canonical JSON of its envelope and the
body. The preamble holds both lengths as unsigned 32-bit integers, so lengths
from 2^32 on are not told apart from their remainders.
-/

namespace Terminay.Protocol
open Script Workspace Outcome

inductive FrameKind where | control | query | command | event | stream | binary | error
  deriving DecidableEq

namespace FrameKind

def code : FrameKind → UInt8
  | .control => 1
  | .query => 2
  | .command => 3
  | .event => 4
  | .stream => 5
  | .binary => 6
  | .error => 7

def ofCode (u : UInt8) : Option FrameKind :=
  [control, query, command, event, stream, binary, error].find? fun k => k.code == u

theorem ofCode_code (k : FrameKind) : ofCode k.code = some k := by
  cases k <;> rfl

theorem code_ofCode {u : UInt8} {k : FrameKind} (h : ofCode u = some k) : k.code = u := by
  rw [ofCode, List.find?_eq_some_iff_append] at h
  exact eq_of_beq h.1

end FrameKind

def EnvelopeType.kind : EnvelopeType → FrameKind
  | .query | .queryResult => .query
  | .command | .commandResult => .command
  | .event | .eventResync => .event
  | .streamOpen | .streamChunk | .streamAck | .streamClose => .stream
  | .binaryStart | .binaryChunk | .binaryAck | .binaryComplete | .binaryFailure => .binary
  | .error | .incompatibleVersion => .error
  | .clientHello | .serverHello | .capabilities | .cancel => .control

def magic : Bytes := [0x54, 0x52, 0x4d, 0x59]
def wireFormatVersion : UInt8 := 1
def frameHeaderBytes : ℕ := 14

variable {ν : Type} [Engine ν]

def frameKindForEnvelope (envelope : Json ν) : FrameKind :=
  match envelope.object?.bind envelopeType? with
  | some type => type.kind
  | none => .control

/-- The limits of frames, any numbers. -/
structure ProtocolLimits (ν : Type) where
  maxHeaderBytes : Numeric ν
  maxBodyBytes : Numeric ν
  maxFrameBytes : Numeric ν

def exceeds (length : ℕ) : Numeric ν → Bool
  | .finite n => decide (Engine.value n < length)
  | .infinite positive => !positive
  | .nan => false

def uint32 (n : ℕ) : Bytes :=
  [UInt8.ofNat (n / 2 ^ 24), UInt8.ofNat (n / 2 ^ 16), UInt8.ofNat (n / 2 ^ 8), UInt8.ofNat n]

def getUint32 (a b c d : UInt8) : ℕ := a.toNat * 2 ^ 24 + b.toNat * 2 ^ 16 + c.toNat * 2 ^ 8 + d.toNat

def checkBodyLength (fields : Fields ν) (type : EnvelopeType) (length : ℕ) : Checked Unit :=
  if type ≠ .queryResult then .ok ()
  else
    match fields.at "bodyLength" with
    | some j =>
      refuseIf (j.num?.map Engine.value ≠ some (length : ℚ)) (js "query result body length mismatch")
    | none => refuseIf (length ≠ 0) (js "query result body is undeclared")

def frameBytes (kind : FrameKind) (header body : Bytes) : Bytes :=
  magic ++ [wireFormatVersion, kind.code] ++ uint32 header.length ++ uint32 body.length ++ header ++
    body

def encodeFrame (limits : ProtocolLimits ν) (envelope : Json ν) (body : Bytes) : Checked Bytes := do
  let checked ← validateEnvelope envelope
  checkBodyLength checked.1 checked.2 body.length
  let header ← encodeCanonicalJson envelope
  refuseIf (exceeds header.length limits.maxHeaderBytes = true) (js "header exceeds limit")
  refuseIf (exceeds body.length limits.maxBodyBytes = true) (js "body exceeds limit")
  refuseIf (exceeds (frameHeaderBytes + header.length + body.length) limits.maxFrameBytes = true)
    (js "frame exceeds limit")
  .ok (frameBytes checked.2.kind header body)

structure DecodedFrame (ν : Type) where
  kind : FrameKind
  envelope : Json ν
  body : Bytes

def decodeFrame (limits : ProtocolLimits ν) : Bytes → Checked (DecodedFrame ν)
  | m₀ :: m₁ :: m₂ :: m₃ :: version :: code :: h₀ :: h₁ :: h₂ :: h₃ :: b₀ :: b₁ :: b₂ :: b₃ :: rest => do
    refuseIf ([m₀, m₁, m₂, m₃] ≠ magic) (js "invalid frame magic")
    refuseIf (version ≠ wireFormatVersion) (js "unsupported wire format")
    let kind ← demand (FrameKind.ofCode code) (js "invalid frame kind")
    let headerLength := getUint32 h₀ h₁ h₂ h₃
    let bodyLength := getUint32 b₀ b₁ b₂ b₃
    refuseIf (exceeds headerLength limits.maxHeaderBytes = true ∨
      exceeds bodyLength limits.maxBodyBytes = true) (js "declared frame part exceeds limit")
    refuseIf (exceeds (frameHeaderBytes + headerLength + bodyLength) limits.maxFrameBytes = true ∨
      headerLength + bodyLength ≠ rest.length) (js "invalid declared frame length")
    let envelope ← decodeCanonicalJson (rest.take headerLength)
    let checked ← validateEnvelope envelope
    refuseIf (checked.2.kind ≠ kind) (js "frame kind does not match envelope")
    checkBodyLength checked.1 checked.2 bodyLength
    .ok ⟨kind, envelope, rest.drop headerLength⟩
  | _ => .error (js "truncated frame")

theorem getUint32_uint32 (n : ℕ) :
    getUint32 (UInt8.ofNat (n / 2 ^ 24)) (UInt8.ofNat (n / 2 ^ 16)) (UInt8.ofNat (n / 2 ^ 8))
      (UInt8.ofNat n) = n % 2 ^ 32 := by
  simp only [getUint32, UInt8.toNat_ofNat']
  omega

theorem uint32_getUint32 (a b c d : UInt8) : uint32 (getUint32 a b c d) = [a, b, c, d] := by
  have ha := a.toNat_lt
  have hb := b.toNat_lt
  have hc := c.toNat_lt
  have hd := d.toNat_lt
  have hfirst : UInt8.ofNat (getUint32 a b c d / 2 ^ 24) = a := by
    apply UInt8.toNat_inj.mp
    simp only [getUint32, UInt8.toNat_ofNat']
    omega
  have hsecond : UInt8.ofNat (getUint32 a b c d / 2 ^ 16) = b := by
    apply UInt8.toNat_inj.mp
    simp only [getUint32, UInt8.toNat_ofNat']
    omega
  have hthird : UInt8.ofNat (getUint32 a b c d / 2 ^ 8) = c := by
    apply UInt8.toNat_inj.mp
    simp only [getUint32, UInt8.toNat_ofNat']
    omega
  have hfourth : UInt8.ofNat (getUint32 a b c d) = d := by
    apply UInt8.toNat_inj.mp
    simp only [getUint32, UInt8.toNat_ofNat']
    omega
  rw [uint32, hfirst, hsecond, hthird, hfourth]

theorem getUint32_lt (a b c d : UInt8) : getUint32 a b c d < 2 ^ 32 := by
  have ha := a.toNat_lt
  have hb := b.toNat_lt
  have hc := c.toNat_lt
  have hd := d.toNat_lt
  simp only [getUint32]
  omega

theorem uint32_inj {m n : ℕ} (h : uint32 m = uint32 n) : m % 2 ^ 32 = n % 2 ^ 32 := by
  simp only [uint32, List.cons.injEq] at h
  obtain ⟨h₁, h₂, h₃, h₄, -⟩ := h
  rw [← getUint32_uint32 m, ← getUint32_uint32 n, h₁, h₂, h₃, h₄]

theorem frameBytes_inj {k k' : FrameKind} {header header' body body' : Bytes}
    (h : frameBytes k header body = frameBytes k' header' body') (hheader : header'.length < 2 ^ 32)
    (hbody : body'.length < 2 ^ 32) : k.code = k'.code ∧ header = header' ∧ body = body' := by
  simp only [frameBytes, List.append_assoc] at h
  have hrest := List.append_cancel_left h
  obtain ⟨hkind, hrest⟩ := List.append_inj hrest (by rfl)
  obtain ⟨hh, hrest⟩ := List.append_inj hrest (by rfl)
  obtain ⟨hb, hrest⟩ := List.append_inj hrest (by rfl)
  have hheaderMod := uint32_inj hh
  have hbodyMod := uint32_inj hb
  have htotal := congrArg List.length hrest
  simp only [List.length_append] at htotal
  obtain ⟨hheaderEq, hbodyEq⟩ := List.append_inj hrest (by omega)
  exact ⟨by simpa using hkind, hheaderEq, hbodyEq⟩

/-- What an encoded frame consists of. -/
structure Encoded (limits : ProtocolLimits ν) (envelope : Json ν) (body frame : Bytes)
    (fields : Fields ν) (type : EnvelopeType) (header : Bytes) : Prop where
  valid : validateEnvelope envelope = .ok (fields, type)
  declared : checkBodyLength fields type body.length = .ok ()
  encodes : encodeCanonicalJson envelope = .ok header
  headerFits : exceeds header.length limits.maxHeaderBytes = false
  bodyFits : exceeds body.length limits.maxBodyBytes = false
  fits : exceeds (frameHeaderBytes + header.length + body.length) limits.maxFrameBytes = false
  bytes : frame = frameBytes type.kind header body

theorem encodeFrame_ok {limits : ProtocolLimits ν} {envelope : Json ν} {body frame : Bytes} :
    encodeFrame limits envelope body = .ok frame ↔
      ∃ fields type header, Encoded limits envelope body frame fields type header := by
  simp only [encodeFrame, bind_ok, refuseIf_ok, Bool.not_eq_true, Except.ok.injEq]
  constructor
  · rintro ⟨⟨fields, type⟩, hvalid, u, hdeclared, header, hheader, u₁, h₁, u₂, h₂, u₃, h₃, rfl⟩
    exact ⟨fields, type, header, hvalid, hdeclared, hheader, h₁, h₂, h₃, rfl⟩
  · rintro ⟨fields, type, header, h⟩
    exact ⟨(fields, type), h.valid, (), h.declared, header, h.encodes, (), h.headerFits, (), h.bodyFits,
      (), h.fits, h.bytes.symm⟩

/-- What an accepted frame consists of. -/
structure Decoded (limits : ProtocolLimits ν) (frame : Bytes) (d : DecodedFrame ν)
    (fields : Fields ν) (type : EnvelopeType) (header : Bytes) : Prop where
  bytes : frame = frameBytes type.kind header d.body
  headerShort : header.length < 2 ^ 32
  bodyShort : d.body.length < 2 ^ 32
  headerFits : exceeds header.length limits.maxHeaderBytes = false
  bodyFits : exceeds d.body.length limits.maxBodyBytes = false
  fits : exceeds (frameHeaderBytes + header.length + d.body.length) limits.maxFrameBytes = false
  envelope : decodeCanonicalJson header = .ok d.envelope
  valid : validateEnvelope d.envelope = .ok (fields, type)
  kind : d.kind = type.kind
  declared : checkBodyLength fields type d.body.length = .ok ()

theorem decodeFrame_of_decoded {limits : ProtocolLimits ν} {frame : Bytes} {d : DecodedFrame ν}
    {fields : Fields ν} {type : EnvelopeType} {header : Bytes}
    (h : Decoded limits frame d fields type header) : decodeFrame limits frame = .ok d := by
  obtain ⟨kind, envelope, body⟩ := d
  have hkind : kind = type.kind := h.kind
  subst hkind
  have hheader : header.length % 2 ^ 32 = header.length := Nat.mod_eq_of_lt h.headerShort
  have hbody : body.length % 2 ^ 32 = body.length := Nat.mod_eq_of_lt h.bodyShort
  rw [h.bytes]
  simp only [frameBytes, magic, uint32, List.cons_append, List.nil_append, decodeFrame,
    getUint32_uint32, hheader, hbody, bind_ok, refuseIf_ok, demand_ok, FrameKind.ofCode_code]
  refine ⟨(), by simp, (), by simp, type.kind, rfl, (), by simp [h.headerFits, h.bodyFits], (),
    by simp [h.fits], envelope, ?_, (fields, type), h.valid, (), by simp, (), h.declared, ?_⟩
  · rw [List.take_left']
    · exact h.envelope
    · rfl
  · rw [List.drop_left']
    rfl

theorem decoded_of_decodeFrame {limits : ProtocolLimits ν} {frame : Bytes} {d : DecodedFrame ν}
    (h : decodeFrame limits frame = .ok d) : ∃ fields type header,
      Decoded limits frame d fields type header := by
  unfold decodeFrame at h
  split at h
  · rename_i m₀ m₁ m₂ m₃ version code h₀ h₁ h₂ h₃ b₀ b₁ b₂ b₃ rest
    simp only [bind_ok, refuseIf_ok, demand_ok, not_not, not_or, Bool.not_eq_true,
      Except.ok.injEq] at h
    obtain ⟨u₁, hmagic, u₂, rfl, kind, hkind, u₃, ⟨hheaderFits, hbodyFits⟩, u₄, ⟨hfits, hlength⟩,
      envelope, henvelope, ⟨fields, type⟩, hvalid, u₅, htype, u₆, hdeclared, rfl⟩ := h
    have hheaderBytes := uint32_getUint32 h₀ h₁ h₂ h₃
    have hbodyBytes := uint32_getUint32 b₀ b₁ b₂ b₃
    have hheaderShort := getUint32_lt h₀ h₁ h₂ h₃
    have hbodyShort := getUint32_lt b₀ b₁ b₂ b₃
    generalize getUint32 h₀ h₁ h₂ h₃ = m at *
    generalize getUint32 b₀ b₁ b₂ b₃ = n at *
    have hheaderLength : (rest.take m).length = m := by
      rw [List.length_take]
      omega
    have hbodyLength : (rest.drop m).length = n := by
      rw [List.length_drop]
      omega
    have hcode : type.kind.code = code := by
      rw [htype]
      exact FrameKind.code_ofCode hkind
    have hbytes : m₀ :: m₁ :: m₂ :: m₃ :: wireFormatVersion :: code :: h₀ :: h₁ :: h₂ :: h₃ :: b₀ :: b₁ ::
        b₂ :: b₃ :: rest = frameBytes type.kind (rest.take m) (rest.drop m) := by
      have hrest : rest.take m ++ rest.drop m = rest := List.take_append_drop m rest
      rw [frameBytes, hheaderLength, hbodyLength, hheaderBytes, hbodyBytes, ← hmagic, hcode,
        List.append_assoc _ (rest.take m), hrest]
      rfl
    exact ⟨fields, type, rest.take m, hbytes, by rw [hheaderLength]; exact hheaderShort,
      by simp only [hbodyLength]; exact hbodyShort, by rw [hheaderLength]; exact hheaderFits,
      by simp only [hbodyLength]; exact hbodyFits,
      by simp only [hheaderLength, hbodyLength]; exact hfits, henvelope, hvalid, htype.symm,
      by simp only [hbodyLength]; exact hdeclared⟩
  · cases h

theorem frameKind_of_valid {envelope : Json ν} {fields : Fields ν} {type : EnvelopeType}
    (h : validateEnvelope envelope = .ok (fields, type)) : frameKindForEnvelope envelope = type.kind := by
  simp only [validateEnvelope, bind_ok, demand_ok] at h
  obtain ⟨fields', hfields, type', htype, u, -, u', -, heq⟩ := h
  obtain ⟨rfl, rfl⟩ := Prod.mk.inj (Except.ok.inj heq)
  rw [frameKindForEnvelope, hfields, Option.bind_some, htype]

theorem Rebuilds.bodyLength {s t : Fields ν} (h : Rebuilds s t) (type : EnvelopeType) (length : ℕ) :
    checkBodyLength t type length = checkBodyLength s type length := by
  rw [checkBodyLength, h.field, checkBodyLength]
  cases s.at "bodyLength" with
  | none => rfl
  | some j => simp [rebuilt_num]

section RoundTrip
variable [LawfulEngine ν]

theorem decodeFrame_encoded (limits : ProtocolLimits ν) (envelope : JsonValue ν) {body frame : Bytes}
    (h : encodeFrame limits envelope.json body = .ok frame)
    (hproto : ownsProto envelope.json = false) (hheader : byteLength envelope.json < 2 ^ 32)
    (hbody : body.length < 2 ^ 32) : decodeFrame limits frame =
      .ok ⟨frameKindForEnvelope envelope.json, rebuilt envelope.json, body⟩ := by
  obtain ⟨fields, type, header, he⟩ := encodeFrame_ok.mp h
  obtain ⟨t, hvalid, hrebuilds⟩ := validateEnvelope_rebuilt ⟨envelope.distinct, hproto⟩ he.valid
  have hlength : header.length = byteLength envelope.json := by
    rw [← (encode_ok.mp he.encodes).2, serialize_bytes]
  have hdeclared := he.declared
  rw [← hrebuilds.bodyLength] at hdeclared
  rw [frameKind_of_valid he.valid]
  have hdecoded : Decoded limits frame ⟨type.kind, rebuilt envelope.json, body⟩ t type header :=
    ⟨he.bytes, by omega, hbody, he.headerFits, he.bodyFits, he.fits,
      (decode_encoded envelope he.encodes _).mpr ⟨hproto, rfl⟩, hvalid, rfl, hdeclared⟩
  exact decodeFrame_of_decoded hdecoded

theorem encoded_decodes :
    (∀ (value : JsonValue ν) (bytes : Bytes), encodeCanonicalJson value.json = .ok bytes →
      ((∃ w, decodeCanonicalJson bytes = .ok w ∧ alike value.json w = true) ↔
        ownsProto value.json = false)) ∧
    ∀ (limits : ProtocolLimits ν) (envelope : JsonValue ν) (body frame : Bytes),
      encodeFrame limits envelope.json body = .ok frame →
      ((∃ d, decodeFrame limits frame = .ok d ∧ alike envelope.json d.envelope = true ∧
          d.body = body ∧ d.kind = frameKindForEnvelope envelope.json) ↔
        ownsProto envelope.json = false ∧ byteLength envelope.json < 2 ^ 32 ∧
          body.length < 2 ^ 32) := by
  constructor
  · intro value bytes hencode
    constructor
    · rintro ⟨w, hdecode, -⟩
      exact ((decode_encoded value hencode w).mp hdecode).1
    · intro hproto
      exact ⟨_, (decode_encoded value hencode _).mpr ⟨hproto, rfl⟩,
        rebuilt_alike value.json value.distinct hproto⟩
  · intro limits envelope body frame hencode
    constructor
    · rintro ⟨d, hdecode, -, rfl, -⟩
      obtain ⟨fields, type, header, he⟩ := encodeFrame_ok.mp hencode
      obtain ⟨fields', type', header', hd⟩ := decoded_of_decodeFrame hdecode
      have hsame : frameBytes type.kind header d.body = frameBytes type'.kind header' d.body := by
        rw [← he.bytes, ← hd.bytes]
      obtain ⟨-, rfl, -⟩ := frameBytes_inj hsame hd.headerShort hd.bodyShort
      have hlength : header.length = byteLength envelope.json := by
        rw [← (encode_ok.mp he.encodes).2, serialize_bytes]
      exact ⟨((decode_encoded envelope he.encodes _).mp hd.envelope).1, hlength ▸ hd.headerShort,
        hd.bodyShort⟩
    · rintro ⟨hproto, hheader, hbody⟩
      exact ⟨_, decodeFrame_encoded limits envelope hencode hproto hheader hbody,
        rebuilt_alike envelope.json envelope.distinct hproto, rfl, rfl⟩

end RoundTrip

def noLimits : ProtocolLimits ℤ := ⟨.infinite true, .infinite true, .infinite true⟩

def cancelEnvelope : JsonValue ℤ where
  json := .obj [(js "type", .str (js "cancel")), (js "correlationId", .str (js "c1"))]
  distinct := by decide

def cancelHeader : Bytes :=
  textEncode (js "\x7b\"correlationId\":\"c1\",\"type\":\"cancel\"\x7d")

theorem cancel_decodes :
    (∃ w, decodeCanonicalJson cancelHeader = .ok w ∧ alike cancelEnvelope.json w = true) ∧
      ∃ d, decodeFrame noLimits (frameBytes .control cancelHeader [7]) = .ok d ∧
        alike cancelEnvelope.json d.envelope = true ∧ d.body = [7] ∧
        d.kind = frameKindForEnvelope cancelEnvelope.json :=
  ⟨(encoded_decodes.1 cancelEnvelope cancelHeader (by decide +kernel)).mpr (by decide),
    (encoded_decodes.2 noLimits cancelEnvelope [7] (frameBytes .control cancelHeader [7])
      (by decide +kernel)).mpr (by decide +kernel)⟩

def protoValue : JsonValue ℤ where
  json := .obj [(js "__proto__", .null)]
  distinct := by decide

def protoBytes : Bytes := textEncode (js "\x7b\"__proto__\":null\x7d")

theorem own_proto_undecodable : encodeCanonicalJson protoValue.json = .ok protoBytes ∧
    ¬ ∃ w, decodeCanonicalJson protoBytes = .ok w ∧ alike protoValue.json w = true := by
  have hencode : encodeCanonicalJson protoValue.json = .ok protoBytes := by decide +kernel
  refine ⟨hencode, ?_⟩
  rintro ⟨w, hdecode, -⟩
  have hproto := ((decode_encoded protoValue hencode w).mp hdecode).1
  revert hproto
  decide

end Terminay.Protocol
