import Terminay.Lib.Entries
import Terminay.Script.Integers

/-!
# Channel fragments

A frame larger than a channel message is cut into fragments of twelve header
bytes and a payload. The receiver keeps at most four transfers in the order they
were opened and joins the payloads of each.
-/

namespace Terminay.Protocol
open Script

def fragmentMagic : Bytes := [0x54, 0x52, 0x4d, 0x46]
def fragmentFormatVersion : UInt8 := 1
def fragmentHeaderBytes : ℕ := 12
def minFragmentPayloadBytes : ℕ := 1024
def maxConcurrentFragmentTransfers : ℕ := 4
def maxFragmentCount : ℕ := 0xffff
def maxTransferId : ℕ := 0xffff

/-- What the codec throws: a `TypeError` or a `RangeError`. -/
inductive FragmentError where
  | type (message : String)
  | range (message : String)
  deriving DecidableEq

inductive ChannelFragmentAdmission where
  | frame (frame : Bytes)
  | partialFrame
  deriving DecidableEq

def uint16 (n : ℕ) : Bytes := [UInt8.ofNat (n / 2 ^ 8), UInt8.ofNat n]

def getUint16 (message : Bytes) (offset : ℕ) : ℕ :=
  (message.getD offset 0).toNat * 2 ^ 8 + (message.getD (offset + 1) 0).toNat

def isChannelFragment (message : Bytes) : Bool :=
  fragmentHeaderBytes ≤ message.length ∧ message.take fragmentMagic.length = fragmentMagic

def fragmentBytes (transferId index count : ℕ) (payload : Bytes) : Bytes :=
  fragmentMagic ++ [fragmentFormatVersion, 0] ++ uint16 transferId ++ uint16 index ++ uint16 count ++
    payload

def fragmentPayload (frame : Bytes) (payloadBytes index : ℕ) : Bytes :=
  (frame.drop (index * payloadBytes)).take payloadBytes

def fragmentCount (length payloadBytes : ℕ) : ℕ := (length + payloadBytes - 1) / payloadBytes

def fragmentsOf (frame : Bytes) (payloadBytes transferId : ℕ) : List Bytes :=
  let count := fragmentCount frame.length payloadBytes
  (List.range count).map fun index =>
    fragmentBytes transferId index count (fragmentPayload frame payloadBytes index)

def encodeChannelFragments (frame : Bytes) (maxMessageBytes transferId : ℕ) :
    Except FragmentError (List Bytes) :=
  if frame = [] then .error (.type "fragment source must be a non-empty Uint8Array")
  else if maxMessageBytes ≤ fragmentHeaderBytes + minFragmentPayloadBytes then
    .error (.range "channel message limit is too small to fragment")
  else if maxTransferId < transferId then .error (.range "fragment transfer id is invalid")
  else if frame.length ≤ maxMessageBytes then .ok [frame]
  else if maxFragmentCount < fragmentCount frame.length (maxMessageBytes - fragmentHeaderBytes) then
    .error (.range "frame needs more fragments than the format allows")
  else .ok (fragmentsOf frame (maxMessageBytes - fragmentHeaderBytes) transferId)

structure PendingTransfer where
  count : ℕ
  nextIndex : ℕ
  bytes : ℕ
  parts : List Bytes
  deriving DecidableEq

structure Fragment where
  transferId : ℕ
  index : ℕ
  count : ℕ
  payload : Bytes

structure Reassembler where
  transfers : List (ℕ × PendingTransfer)
  pendingBytes : ℕ
  deriving DecidableEq

def readFragment (message : Bytes) : Fragment :=
  ⟨getUint16 message 6, getUint16 message 8, getUint16 message 10, message.drop fragmentHeaderBytes⟩

def versionSupported (message : Bytes) : Bool := message.getD 4 0 = fragmentFormatVersion

def Fragment.valid (f : Fragment) : Bool := 2 ≤ f.count ∧ f.index < f.count ∧ f.payload ≠ []

namespace Reassembler

def empty : Reassembler := ⟨[], 0⟩

def discard (r : Reassembler) (transferId : ℕ) (transfer : PendingTransfer) : Reassembler :=
  ⟨Entries.delete r.transfers transferId, r.pendingBytes - transfer.bytes⟩

def drop (r : Reassembler) (transferId : ℕ) : Reassembler :=
  match Entries.get r.transfers transferId with
  | none => r
  | some transfer => r.discard transferId transfer

def evictFrom : List (ℕ × PendingTransfer) → ℕ → Reassembler
  | [], pending => ⟨[], pending⟩
  | oldest :: rest, pending =>
    if maxConcurrentFragmentTransfers ≤ rest.length + 1 then
      evictFrom rest (pending - oldest.2.bytes)
    else ⟨oldest :: rest, pending⟩

def restart (r : Reassembler) (f : Fragment) : Reassembler :=
  let free := r.drop f.transferId
  let room := evictFrom free.transfers free.pendingBytes
  ⟨Entries.set room.transfers f.transferId ⟨f.count, 0, 0, []⟩, room.pendingBytes⟩

def transferFor (r : Reassembler) (f : Fragment) : Option PendingTransfer × Reassembler :=
  if f.index = 0 then (some ⟨f.count, 0, 0, []⟩, r.restart f)
  else
    match Entries.get r.transfers f.transferId with
    | none => (none, r)
    | some transfer =>
      if transfer.count = f.count ∧ transfer.nextIndex = f.index then (some transfer, r)
      else (none, r.drop f.transferId)

def push (maxFrameBytes : ℕ) (r : Reassembler) (f : Fragment) (transfer : PendingTransfer) :
    Except FragmentError ChannelFragmentAdmission × Reassembler :=
  if maxFrameBytes * maxConcurrentFragmentTransfers < r.pendingBytes + f.payload.length ∨
      maxFrameBytes < transfer.bytes + f.payload.length then
    (.error (.range "channel fragment transfer exceeds the frame limit"),
      r.discard f.transferId transfer)
  else
    let grown : PendingTransfer :=
      ⟨transfer.count, f.index + 1, transfer.bytes + f.payload.length, transfer.parts ++ [f.payload]⟩
    let pushed : Reassembler :=
      ⟨Entries.set r.transfers f.transferId grown, r.pendingBytes + f.payload.length⟩
    if grown.nextIndex < grown.count then (.ok .partialFrame, pushed)
    else (.ok (.frame grown.parts.flatten), pushed.discard f.transferId grown)

def accept (maxFrameBytes : ℕ) (r : Reassembler) (message : Bytes) :
    Except FragmentError ChannelFragmentAdmission × Reassembler :=
  if isChannelFragment message = false then (.ok (.frame message), r)
  else if versionSupported message = false then
    (.error (.range "channel fragment version is unsupported"), empty)
  else
    let f := readFragment message
    if f.valid = false then (.error (.range "channel fragment header is invalid"), empty)
    else
      match r.transferFor f with
      | (none, next) => (.error (.range "channel fragment arrived out of order"), next)
      | (some transfer, next) => next.push maxFrameBytes f transfer

end Reassembler

end Terminay.Protocol
