import Terminay.Protocol.FragmentTransfers
import Terminay.Protocol.Frame

/-!
# Envelopes over a channel

A channel carries encoded frames, whole or in fragments. A frame is never taken for a fragment, and
whatever order the fragments of several frames come in, each frame decodes to what was sent.
-/

namespace Terminay.Protocol
open Script Outcome

variable {ν : Type} [Engine ν]

theorem encodeFrame_unfragmented {limits : ProtocolLimits ν} {envelope : Json ν}
    {body frame : Bytes} (h : encodeFrame limits envelope body = .ok frame) :
    ¬ fragmentMagic <+: frame := by
  obtain ⟨fields, type, header, he⟩ := encodeFrame_ok.mp h
  rintro ⟨rest, hrest⟩
  rw [he.bytes, frameBytes] at hrest
  simp [fragmentMagic, magic] at hrest

theorem encodeFrame_length {limits : ProtocolLimits ν} {envelope : Json ν} {body frame : Bytes}
    [LawfulEngine ν] (h : encodeFrame limits envelope body = .ok frame) :
    frame.length = frameHeaderBytes + byteLength envelope + body.length := by
  obtain ⟨fields, type, header, he⟩ := encodeFrame_ok.mp h
  have hlength : header.length = byteLength envelope := by
    rw [← (encode_ok.mp he.encodes).2, serialize_bytes]
  rw [he.bytes, frameBytes]
  simp only [List.length_append, hlength]
  rfl

/-- The message that completes a frame is answered with the frame, and it decodes to the envelope
and the body it was encoded from. -/
theorem envelopes_reassembled [LawfulEngine ν] (limits : ProtocolLimits ν)
    {maxMessageBytes maxFrameBytes : ℕ} (hmax : maxFrameBytes < 2 ^ 32) {jobs : List FragmentJob}
    (sent : Fin jobs.length → JsonValue ν × Bytes)
    (hencode : ∀ j, encodeFrame limits (sent j).1.json (sent j).2 = .ok (jobs.get j).frame ∧
      ownsProto (sent j).1.json = false)
    (hfits : ∀ j, isOk (encodeChannelFragments (jobs.get j).frame maxMessageBytes
      (jobs.get j).transferId) = true ∧ (jobs.get j).frame.length ≤ maxFrameBytes)
    {tagged : List (Fin jobs.length × Bytes)}
    (hsent : ∀ j, sentOf tagged j = (jobs.get j).messages maxMessageBytes)
    (hapart : ∀ before, before <+: tagged → OpenApart (openIds maxMessageBytes jobs.get before)) :
    ∀ before j message after, tagged = before ++ (j, message) :: after →
      let answer := ((received maxFrameBytes (before.map Prod.snd)).accept maxFrameBytes message).1
      if (sentOf before j).length + 1 = ((jobs.get j).messages maxMessageBytes).length then
        ∃ frame d, answer = .ok (.frame frame) ∧ decodeFrame limits frame = .ok d ∧
          alike (sent j).1.json d.envelope = true ∧ d.body = (sent j).2 ∧
          d.kind = frameKindForEnvelope (sent j).1.json
      else answer = .ok .partialFrame := by
  intro before j message after hsplit
  have hsend : ∀ j, Sendable maxMessageBytes maxFrameBytes (jobs.get j) := fun j =>
    ⟨(hfits j).1, (hfits j).2, encodeFrame_unfragmented (hencode j).1⟩
  have hearly : before ++ [(j, message)] <+: tagged := ⟨after, by rw [hsplit, List.append_assoc]; rfl⟩
  have hshorter : before <+: tagged := (List.prefix_append _ _).trans hearly
  have hanswer := (follows_step (received_holds maxFrameBytes _)
    (follows_run hsend hsent hapart before hshorter) (hsend j) (sent_next (hsplit ▸ hsent j))
    (hapart before hshorter) (hapart _ hearly)).1
  split_ifs at hanswer ⊢ with hlast
  · have hlength := encodeFrame_length (hencode j).1
    have hshort := (hfits j).2
    refine ⟨_, _, hanswer, decodeFrame_encoded limits (sent j).1 (hencode j).1 (hencode j).2 (by omega)
      (by omega), rebuilt_alike _ (sent j).1.distinct (hencode j).2, rfl, rfl⟩
  · exact hanswer

def cancelJobs : List FragmentJob :=
  [⟨frameBytes .control cancelHeader (List.replicate 1100 1), 7⟩,
    ⟨frameBytes .control cancelHeader (List.replicate 1100 2), 8⟩]

def cancelsInTurn : List (Fin cancelJobs.length × Bytes) :=
  (List.finRange 2).flatMap fun index => (List.finRange cancelJobs.length).map fun j =>
    (j, ((cancelJobs.get j).messages 1037).getD index.val [])

def cancelsSent (j : Fin cancelJobs.length) : JsonValue ℤ × Bytes :=
  (cancelEnvelope, List.replicate 1100 (UInt8.ofNat (j.val + 1)))

theorem envelopes_reassembled_cancels : cancelsInTurn.map (·.1.val) = [0, 1, 0, 1] ∧
    ∀ before j message after, cancelsInTurn = before ++ (j, message) :: after →
      let answer := ((received 4096 (before.map Prod.snd)).accept 4096 message).1
      if (sentOf before j).length + 1 = ((cancelJobs.get j).messages 1037).length then
        ∃ frame d, answer = .ok (.frame frame) ∧ decodeFrame noLimits frame = .ok d ∧
          alike (cancelsSent j).1.json d.envelope = true ∧ d.body = (cancelsSent j).2 ∧
          d.kind = frameKindForEnvelope (cancelsSent j).1.json
      else answer = .ok .partialFrame :=
  have hapart : ∀ before ∈ cancelsInTurn.inits,
      (openIds 1037 cancelJobs.get before).Nodup ∧
        (openIds 1037 cancelJobs.get before).length ≤ maxConcurrentFragmentTransfers := by
    decide +kernel
  ⟨by decide, envelopes_reassembled noLimits (by decide) cancelsSent (by decide +kernel)
    (by decide +kernel) (by decide +kernel) fun before h =>
      hapart before (List.mem_inits _ _ |>.mpr h)⟩

end Terminay.Protocol
