import Terminay.Lib.Framing
import Terminay.Protocol.Frame
import Terminay.Script.JsonParse

/-!
# The frames of a holder connection

A frame is its length, the length of its header, the header and the payload. The decoder puts each
chunk behind the bytes it has kept and takes every frame that is complete. When it throws, it has
kept the chunk.
-/

namespace Terminay.Holder
open Script Protocol Outcome

def maxPayloadBytes : ℕ := 1024 * 1024
def maxHeaderBytes : ℕ := 1024 * 1024
def maxFrameBytes : ℕ := 4 + maxHeaderBytes + maxPayloadBytes

variable {ν : Type} [Engine ν]

structure HolderMessage (ν : Type) [Engine ν] where
  fields : List (Str × Json ν)
  type : Str
  distinct : distinctKeys (.obj fields) = true
  typed : fields.lookup (js "type") = some (.str type)

def HolderMessage.json (m : HolderMessage ν) : Json ν := .obj m.fields

structure HolderFrame (ν : Type) where
  message : Json (Numeric ν)
  payload : Bytes

def frameLayout (header payload : Bytes) : Bytes :=
  uint32 (4 + header.length + payload.length) ++ uint32 header.length ++ header ++ payload

def encodeHolderFrame (message : HolderMessage ν) (payload : Bytes) : Except Str Bytes := do
  let header := textEncode message.json.stringify
  refuseIf (maxHeaderBytes < header.length) (js "holder frame header is too large")
  refuseIf (maxPayloadBytes < payload.length) (js "holder frame payload is too large")
  .ok (frameLayout header payload)

/-- `getUint32` at an offset, where the bytes reach that far. -/
def uint32At (s : Bytes) (offset : ℕ) : ℕ :=
  getUint32 (s.getD offset 0) (s.getD (offset + 1) 0) (s.getD (offset + 2) 0)
    (s.getD (offset + 3) 0)

def parseHeader (header : Bytes) : Option (Json (Numeric ν)) := (textDecode header).bind Json.parse

def hasType : Json (Numeric ν) → Bool
  | .obj fields =>
    match fields.lookup (js "type") with
    | some (.str _) => true
    | _ => false
  | _ => false

/-- What comes after the length of a frame: the length of its header, the header, the payload. -/
def openFrame (content : Bytes) : Except Str (HolderFrame ν) := do
  let headerLength := uint32At content 0
  refuseIf (content.length - 4 < headerLength) (js "holder frame header overruns its frame")
  refuseIf (maxHeaderBytes < headerLength) (js "holder frame header is too large")
  refuseIf (maxPayloadBytes < content.length - 4 - headerLength)
    (js "holder frame payload is too large")
  let message ← demand (parseHeader ((content.drop 4).take headerLength))
    (js "holder frame header is not valid JSON")
  refuseIf (hasType message = false) (js "holder frame header has no type")
  .ok ⟨message, content.drop (4 + headerLength)⟩

/-- One turn of the decoder's loop: the next frame and the bytes after it, unless it is not there
yet. -/
def readFrame (s : Bytes) : Except Str (Option (HolderFrame ν × Bytes)) :=
  if s.length < 4 then .ok none
  else do
    let frameLength := uint32At s 0
    refuseIf (frameLength < 4 ∨ maxFrameBytes < frameLength)
      (js "holder frame length is out of range")
    if s.length < 4 + frameLength then .ok none
    else do
      let frame ← openFrame ((s.drop 4).take frameLength)
      .ok (some (frame, s.drop (4 + frameLength)))

theorem uint32At_append {s : Bytes} {offset : ℕ} (h : offset + 4 ≤ s.length) (t : Bytes) :
    uint32At (s ++ t) offset = uint32At s offset := by
  have hget : ∀ i, i < s.length → (s ++ t).getD i 0 = s.getD i 0 := by
    intro i hi
    rw [List.getD_eq_getElem?_getD, List.getElem?_append_left hi, List.getD_eq_getElem?_getD]
  rw [uint32At, uint32At, hget _ (by omega), hget _ (by omega), hget _ (by omega),
    hget _ (by omega)]

theorem uint32At_uint32 {n : ℕ} (hn : n < 2 ^ 32) (t : Bytes) : uint32At (uint32 n ++ t) 0 = n := by
  have h := getUint32_uint32 n
  rw [Nat.mod_eq_of_lt hn] at h
  exact h

theorem uint32_uint32At {s : Bytes} (h : 4 ≤ s.length) : s = uint32 (uint32At s 0) ++ s.drop 4 := by
  rcases s with _ | ⟨a, _ | ⟨b, _ | ⟨c, _ | ⟨d, rest⟩⟩⟩⟩
  · simp at h
  · simp at h
  · simp at h
  · simp at h
  · have hbytes := uint32_getUint32 a b c d
    change _ = uint32 (getUint32 a b c d) ++ rest
    rw [hbytes]
    rfl

structure Accepts (header payload : Bytes) (message : Json (Numeric ν)) : Prop where
  headerFits : header.length ≤ maxHeaderBytes
  payloadFits : payload.length ≤ maxPayloadBytes
  parsed : parseHeader header = some message
  typed : hasType message = true

theorem openFrame_ok {content : Bytes} {f : HolderFrame ν} (hlength : 4 ≤ content.length) :
    openFrame content = .ok f ↔
      ∃ header, content = uint32 header.length ++ header ++ f.payload ∧
        Accepts header f.payload f.message := by
  simp only [openFrame, bind_ok, refuseIf_ok, demand_ok]
  constructor
  · rintro ⟨-, hfits, -, hheader, -, hpayload, message, hparsed, -, htyped, hf⟩
    cases hf
    have htake : ((content.drop 4).take (uint32At content 0)).length = uint32At content 0 := by
      rw [List.length_take, List.length_drop]
      omega
    refine ⟨(content.drop 4).take (uint32At content 0), ?_, ?_, ?_, hparsed, ?_⟩
    · rw [htake, List.append_assoc, ← List.drop_drop, List.take_append_drop]
      exact uint32_uint32At hlength
    · omega
    · simp only [List.length_drop]
      omega
    · simpa using htyped
  · rintro ⟨header, hcontent, haccepts⟩
    have hsmall := haccepts.headerFits
    have hpayload := haccepts.payloadFits
    have hbound : header.length < 2 ^ 32 := lt_of_le_of_lt hsmall (by decide)
    have hat : uint32At content 0 = header.length := by
      rw [hcontent, List.append_assoc]
      exact uint32At_uint32 hbound _
    have hdrop : content.drop 4 = header ++ f.payload := by
      rw [hcontent, List.append_assoc]
      rfl
    have htotal : content.length = 4 + header.length + f.payload.length := by
      rw [hcontent, List.length_append, List.length_append]
      rfl
    rw [hat, hdrop, List.take_left, ← List.drop_drop, hdrop, List.drop_left]
    refine ⟨(), by omega, (), by omega, (), by omega, f.message, haccepts.parsed, (), ?_, rfl⟩
    simp [haccepts.typed]

theorem readFrame_short {s : Bytes} (h : s.length < 4) :
    (readFrame s : Except Str (Option (HolderFrame ν × Bytes))) = .ok none := if_pos h

/-- The length of a frame is in range. -/
def InRange (frameLength : ℕ) : Prop := 4 ≤ frameLength ∧ frameLength ≤ maxFrameBytes

theorem readFrame_range {s : Bytes} (h : 4 ≤ s.length) (hrange : ¬ InRange (uint32At s 0)) :
    (readFrame s : Except Str (Option (HolderFrame ν × Bytes))) =
      .error (js "holder frame length is out of range") := by
  have hout : uint32At s 0 < 4 ∨ maxFrameBytes < uint32At s 0 := by
    unfold InRange at hrange
    omega
  unfold readFrame
  rw [if_neg (by omega)]
  dsimp only
  rw [refuseIf, if_pos hout]
  rfl

theorem readFrame_part {s : Bytes} (h : 4 ≤ s.length) (hrange : InRange (uint32At s 0))
    (hpart : s.length < 4 + uint32At s 0) :
    (readFrame s : Except Str (Option (HolderFrame ν × Bytes))) = .ok none := by
  have hin : ¬(uint32At s 0 < 4 ∨ maxFrameBytes < uint32At s 0) := by
    unfold InRange at hrange
    omega
  unfold readFrame
  rw [if_neg (by omega)]
  dsimp only
  rw [refuseIf, if_neg hin, if_pos hpart]
  rfl

theorem readFrame_whole {s : Bytes} (hrange : InRange (uint32At s 0))
    (hwhole : 4 + uint32At s 0 ≤ s.length) :
    (readFrame s : Except Str (Option (HolderFrame ν × Bytes))) =
      (openFrame ((s.drop 4).take (uint32At s 0))).map
        fun f => some (f, s.drop (4 + uint32At s 0)) := by
  have hin : ¬(uint32At s 0 < 4 ∨ maxFrameBytes < uint32At s 0) := by
    unfold InRange at hrange
    omega
  unfold readFrame
  rw [if_neg (by omega)]
  dsimp only
  rw [refuseIf, if_neg hin, if_neg (by omega)]
  cases (openFrame ((s.drop 4).take (uint32At s 0)) : Except Str (HolderFrame ν)) <;> rfl

theorem readFrame_cases (s : Bytes) :
    s.length < 4 ∨ 4 ≤ s.length ∧ ¬ InRange (uint32At s 0) ∨
      4 ≤ s.length ∧ InRange (uint32At s 0) ∧ s.length < 4 + uint32At s 0 ∨
      InRange (uint32At s 0) ∧ 4 + uint32At s 0 ≤ s.length := by
  rcases Nat.lt_or_ge s.length 4 with hc | hc
  · exact .inl hc
  · by_cases hrange : InRange (uint32At s 0)
    · rcases Nat.lt_or_ge s.length (4 + uint32At s 0) with hp | hw
      · exact .inr (.inr (.inl ⟨hc, hrange, hp⟩))
      · exact .inr (.inr (.inr ⟨hrange, hw⟩))
    · exact .inr (.inl ⟨hc, hrange⟩)

theorem frame_shorter (s : Bytes) (f : HolderFrame ν) (rest : Bytes)
    (h : readFrame s = .ok (some (f, rest))) : rest.length < s.length := by
  rcases readFrame_cases s with hc | ⟨hc, hr⟩ | ⟨hc, hr, hp⟩ | ⟨hr, hw⟩
  · rw [readFrame_short hc] at h
    cases h
  · rw [readFrame_range hc hr] at h
    cases h
  · rw [readFrame_part hc hr hp] at h
    cases h
  · rw [readFrame_whole hr hw, Framing.map_ok] at h
    obtain ⟨f', -, hf⟩ := h
    cases hf
    rw [List.length_drop]
    omega

theorem readFrame_append {s : Bytes} (hrange : InRange (uint32At s 0))
    (hwhole : 4 + uint32At s 0 ≤ s.length) (t : Bytes) :
    (readFrame (s ++ t) : Except Str (Option (HolderFrame ν × Bytes))) =
      (openFrame ((s.drop 4).take (uint32At s 0))).map
        fun f => some (f, s.drop (4 + uint32At s 0) ++ t) := by
  have hat : uint32At (s ++ t) 0 = uint32At s 0 := uint32At_append (by omega) t
  rw [readFrame_whole (by rwa [hat]) (by rw [hat, List.length_append]; omega), hat,
    List.drop_append_of_le_length (by omega), List.drop_append_of_le_length (by omega),
    List.take_append_of_le_length (by rw [List.length_drop]; omega)]

theorem frame_extends (s : Bytes) (f : HolderFrame ν) (rest t : Bytes)
    (h : readFrame s = .ok (some (f, rest))) :
    readFrame (s ++ t) = .ok (some (f, rest ++ t)) := by
  rcases readFrame_cases s with hc | ⟨hc, hr⟩ | ⟨hc, hr, hp⟩ | ⟨hr, hw⟩
  · rw [readFrame_short hc] at h
    cases h
  · rw [readFrame_range hc hr] at h
    cases h
  · rw [readFrame_part hc hr hp] at h
    cases h
  · rw [readFrame_whole hr hw, Framing.map_ok] at h
    obtain ⟨f', hopen, hf⟩ := h
    cases hf
    rw [readFrame_append hr hw, hopen]
    rfl

theorem refusal_extends (s : Bytes) (e : Str) (t : Bytes)
    (h : (readFrame s : Except Str (Option (HolderFrame ν × Bytes))) = .error e) :
    (readFrame (s ++ t) : Except Str (Option (HolderFrame ν × Bytes))) = .error e := by
  rcases readFrame_cases s with hc | ⟨hc, hr⟩ | ⟨hc, hr, hp⟩ | ⟨hr, hw⟩
  · rw [readFrame_short hc] at h
    cases h
  · have hat : uint32At (s ++ t) 0 = uint32At s 0 := uint32At_append (by omega) t
    rw [readFrame_range hc hr] at h
    rw [readFrame_range (by rw [List.length_append]; omega) (by rwa [hat]), h]
  · rw [readFrame_part hc hr hp] at h
    cases h
  · rw [readFrame_whole hr hw, Framing.map_error] at h
    rw [readFrame_append hr hw, h]
    rfl

/-- The decoder as a reader of frames. -/
def frameReader (ν : Type) [Engine ν] : Framing.Reader UInt8 (HolderFrame ν) Str where
  read := readFrame
  idle := readFrame_short (by decide)
  shorter := frame_shorter
  extends_frame := frame_extends
  extends_refusal := refusal_extends

/-! ## The decoder -/

structure HolderFrameDecoder where
  buffered : Bytes

namespace HolderFrameDecoder

def new : HolderFrameDecoder := ⟨[]⟩

def taken (d : HolderFrameDecoder) (chunk : Bytes) : Bytes := d.buffered ++ chunk

/-- A push that throws has kept the chunk. -/
def push (d : HolderFrameDecoder) (chunk : Bytes) :
    Except Str (List (HolderFrame ν)) × HolderFrameDecoder :=
  match (frameReader ν).drain (d.taken chunk) with
  | .ok (frames, rest) => (.ok frames, ⟨rest⟩)
  | .error e => (.error e, ⟨d.taken chunk⟩)

def pushAll (d : HolderFrameDecoder) :
    List Bytes → Except Str (List (HolderFrame ν) × HolderFrameDecoder)
  | [] => .ok ([], d)
  | chunk :: chunks =>
    match d.push chunk with
    | (.error e, _) => .error e
    | (.ok frames, d) => (pushAll d chunks).map fun p => (frames ++ p.1, p.2)

def pendingBytes (d : HolderFrameDecoder) : ℕ := d.buffered.length

end HolderFrameDecoder

end Terminay.Holder
