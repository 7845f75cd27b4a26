import Terminay.Lib.Effects
import Terminay.Lib.OrderedMap
import Terminay.Remote.Tokens
import Mathlib.Data.Nat.Digits.Defs

/-!
# Device enrollment, challenges and connection tickets

The clock and the entropy are streams that are read one answer at a time; a reading
that is no integer is `none`. What a public key is and whether a signature verifies
under it are the platform's. The log is a ghost: it says what was registered, signed,
challenged, issued, accepted and revoked, in order.
-/

namespace Terminay.Remote
open Script

inductive DeviceError where
  | identityInvalid
  | nameInvalid
  | keyInvalid
  | keyNotRsa
  | keyTooSmall
  | revoked
  | keyMismatch
  | storedInvalid
  | storedDuplicated
  | challengeLimit
  | challengeUnavailable
  | signatureInvalid
  | peerInvalid
  | ticketUnusable
  | ticketElsewhere
  | unregistered
  | clockInvalid
  | entropyInvalid
deriving DecidableEq

def DeviceError.message : DeviceError → Str
  | identityInvalid => js "remote device identity is invalid"
  | nameInvalid => js "remote device name is invalid"
  | keyInvalid => js "remote device public key is invalid"
  | keyNotRsa => js "remote device public key must be RSA"
  | keyTooSmall => js "remote device public key is too small"
  | revoked => js "remote device is revoked"
  | keyMismatch => js "remote device key does not match"
  | storedInvalid => js "persisted remote device is invalid"
  | storedDuplicated => js "persisted remote device is duplicated"
  | challengeLimit => js "remote challenge limit reached"
  | challengeUnavailable => js "remote device challenge is unavailable"
  | signatureInvalid => js "remote device signature is invalid"
  | peerInvalid => js "remote peer identity is invalid"
  | ticketUnusable => js "remote ticket is invalid or already used"
  | ticketElsewhere => js "remote ticket belongs to another peer"
  | unregistered => js "remote device is not registered"
  | clockInvalid => js "remote clock is invalid"
  | entropyInvalid => js "remote entropy generator returned an invalid length"

structure AuthenticationOptions where
  serverId : Str
  sessionOrigin : Str
  challengeTtlMs : ℤ
  ticketTtlMs : ℤ
  maxChallenges : ℕ

/-- What `createPublicKey` says of a key it can read. -/
structure KeyDetails where
  isRsa : Bool
  modulusLength : Option ℕ

structure Platform where
  clock : ℕ → Option ℤ
  entropy : ℕ → Bytes
  createPublicKey : Str → Option KeyDetails
  /-- `verify` of a signature in base64url over a message under a key. -/
  verifies : Str → Bytes → Str → Bool

structure RegisteredDevice where
  deviceId : Str
  deviceName : Str
  publicKeyPem : Str
  createdAt : ℤ
  lastSeenAt : ℤ
  revokedAt : Option ℤ
deriving DecidableEq

structure DeviceChallenge where
  challengeId : Str
  serverId : Str
  sessionOrigin : Str
  deviceId : Str
  nonce : Str
  issuedAt : ℤ
  expiresAt : ℤ
deriving DecidableEq

structure ConnectionTicket where
  ticket : Str
  ticketId : Str
  serverId : Str
  sessionOrigin : Str
  deviceId : Str
  expiresAt : ℤ
  peerId : Option Str
deriving DecidableEq

structure PendingChallenge where
  challenge : DeviceChallenge
  signingInput : Str

structure TicketRecord where
  ticket : ConnectionTicket
  used : Bool

/-- The proof a ticket was issued on: the challenge, the key it was signed with and the
origin the caller's peer had reached. -/
structure Grant where
  challenge : DeviceChallenge
  key : Str
  origin : Str
deriving DecidableEq

inductive AuthEvent where
  | registered (deviceId key : Str)
  | signed (key : Str) (message : Bytes)
  | challenged (challenge : DeviceChallenge)
  | issued (ticket : ConnectionTicket) (grant : Option Grant)
  | accepted (ticket : ConnectionTicket) (peerId : Option Str) (now : ℤ)
  | revoked (deviceId : Str)
deriving DecidableEq

structure AuthState where
  devices : OrderedMap Str RegisteredDevice
  challenges : OrderedMap Str PendingChallenge
  tickets : OrderedMap Str TicketRecord
  sequence : ℕ
  readings : ℕ
  draws : ℕ
  log : List AuthEvent

def AuthState.initial : AuthState := ⟨.empty, .empty, .empty, 0, 0, 0, []⟩

def AuthState.record (event : AuthEvent) (s : AuthState) : AuthState :=
  { s with log := s.log ++ [event] }

abbrev Authenticating (α : Type) : Type := Fallible AuthState DeviceError α

def printTime (n : ℤ) : Str := if n < 0 then js "-" ++ natText n.natAbs else natText n.natAbs

def DOMAIN : Str := js "terminay" ++ [0] ++ js "v1" ++ [0] ++ js "device-authentication" ++ [0]

def joinNul : List Str → Str
  | [] => []
  | [s] => s
  | s :: rest => s ++ 0 :: joinNul rest

def serializeRemoteDeviceChallenge (c : DeviceChallenge) : Str :=
  joinNul [DOMAIN, js "v1", c.challengeId, c.serverId, c.sessionOrigin, c.deviceId, c.nonce,
    printTime c.issuedAt, printTime c.expiresAt]

def challengeBytes (c : DeviceChallenge) : Bytes := textEncode (serializeRemoteDeviceChallenge c)

def validDeviceName (value : Str) : Bool :=
  !(trim value).isEmpty && value.length ≤ 128 && value.all fun u => u != 0 && u != 13 && u != 10

def isSafeTime (n : ℤ) : Bool := 0 ≤ n && n ≤ 9007199254740991

def isStoredDevice (d : RegisteredDevice) : Bool :=
  validId d.deviceId && validDeviceName d.deviceName && isSafeTime d.createdAt &&
    isSafeTime d.lastSeenAt && d.revokedAt.all isSafeTime

def validSignature (value : Str) : Bool :=
  32 ≤ value.length && value.length ≤ 2048 &&
    value.all fun u => isLetter u || isDigit u || u == unit '_' || u == unit '-'

def assertRsaPssPublicKey (p : Platform) (value : Str) : Except DeviceError Unit :=
  if value.length < 64 ∨ 16384 < value.length then .error .keyInvalid
  else
    match p.createPublicKey value with
    | none => .error .keyInvalid
    | some details =>
      if details.isRsa = false then .error .keyNotRsa
      else if details.modulusLength.all (· < 2048) then .error .keyTooSmall
      else .ok ()

open Fallible

variable (p : Platform) (o : AuthenticationOptions)

def currentReading : Authenticating ℤ := do
  let s ← get
  modify fun s => { s with readings := s.readings + 1 }
  match p.clock s.readings with
  | none => fail .clockInvalid
  | some now => if isSafeTime now then pure now else fail .clockInvalid

def drawToken (size : ℕ) : Authenticating Str := do
  let s ← get
  modify fun s => { s with draws := s.draws + 1 }
  if (p.entropy s.draws).length = size then pure (toToken (p.entropy s.draws))
  else fail .entropyInvalid

def radix36Unit (n : ℕ) : UInt16 :=
  (js "0123456789abcdefghijklmnopqrstuvwxyz").getD n (unit '0')

/-- `n.toString(36)` -/
def radix36 (n : ℕ) : Str :=
  if n = 0 then js "0" else ((Nat.digits 36 n).map radix36Unit).reverse

def nextId (kind : Str) : Authenticating Str := do
  modify fun s => { s with sequence := s.sequence + 1 }
  let s ← get
  let token ← drawToken p 12
  pure (kind ++ js "-" ++ radix36 s.sequence ++ js "-" ++ token)

def requireActiveDevice (deviceId : Str) : Authenticating RegisteredDevice := do
  let s ← get
  if validId deviceId = false then fail .identityInvalid
  else
    match s.devices.get deviceId with
    | none => fail .unregistered
    | some device => if device.revokedAt.isSome then fail .revoked else pure device

def isLive (now : ℤ) (expiresAt : ℤ) : Bool := now < expiresAt

def sweep (now : ℤ) (s : AuthState) : AuthState :=
  { s with
    challenges := s.challenges.filter fun pending => isLive now pending.challenge.expiresAt
    tickets := s.tickets.filter fun record => !record.used && isLive now record.ticket.expiresAt }

def cleanup : Authenticating (ℤ × ℕ) := do
  let now ← currentReading p
  let s ← get
  modify (sweep now)
  let t ← get
  pure (now, (s.challenges.size - t.challenges.size) + (s.tickets.size - t.tickets.size))

def setDevice (device : RegisteredDevice) (s : AuthState) : AuthState :=
  { s with devices := s.devices.set device.deviceId device }

def registerDevice (device : RegisteredDevice) (s : AuthState) : AuthState :=
  (setDevice device s).record (.registered device.deviceId device.publicKeyPem)

structure EnrollInput where
  deviceId : Option Str
  deviceName : Str
  publicKeyPem : Str

def enrolledId : Option Str → Authenticating Str
  | some id => pure id
  | none => nextId p (js "device")

def enroll (i : EnrollInput) : Authenticating RegisteredDevice := do
  if i.deviceId.any (fun id => !validId id) then fail .identityInvalid
  else if validDeviceName i.deviceName = false then fail .nameInvalid
  else
    check (assertRsaPssPublicKey p i.publicKeyPem)
    let now ← currentReading p
    let deviceId ← enrolledId p i.deviceId
    let s ← get
    match s.devices.get deviceId with
    | some existing =>
      if existing.revokedAt.isSome then fail .revoked
      else if existing.publicKeyPem ≠ i.publicKeyPem then fail .keyMismatch
      else
        let next := { existing with deviceName := i.deviceName, lastSeenAt := now }
        modify fun s => { s with devices := s.devices.set deviceId next }
        pure next
    | none =>
      let device : RegisteredDevice :=
        ⟨deviceId, i.deviceName, i.publicKeyPem, now, now, none⟩
      modify (registerDevice device)
      pure device

def restore : List RegisteredDevice → Authenticating Unit
  | [] => pure ()
  | device :: devices => do
    if isStoredDevice device = false then fail .storedInvalid
    else
      check (assertRsaPssPublicKey p device.publicKeyPem)
      let s ← get
      if (s.devices.get device.deviceId).isSome then fail .storedDuplicated
      else
        modify (registerDevice device)
        restore devices

def dropDevice (deviceId : Str) (s : AuthState) : AuthState :=
  { s with
    challenges := s.challenges.filter fun pending => pending.challenge.deviceId != deviceId
    tickets := s.tickets.filter fun record => record.ticket.deviceId != deviceId }

def revokeDevice (deviceId : Str) : Authenticating Bool := do
  let s ← get
  match s.devices.get deviceId with
  | none => pure false
  | some device =>
    if device.revokedAt.isSome then
      modify (AuthState.record (.revoked deviceId))
      pure false
    else
      let now ← currentReading p
      let revoked := { device with revokedAt := some now }
      modify fun s => { s with devices := s.devices.set deviceId revoked }
      modify (dropDevice deviceId)
      modify (AuthState.record (.revoked deviceId))
      pure true

def createChallenge (deviceId : Str) (sessionOrigin : Option Str) :
    Authenticating DeviceChallenge := do
  let _ ← cleanup p
  let device ← requireActiveDevice deviceId
  let s ← get
  if o.maxChallenges ≤ s.challenges.size then fail .challengeLimit
  else
    let issuedAt ← currentReading p
    let challengeId ← nextId p (js "challenge")
    let nonce ← drawToken p 32
    let challenge : DeviceChallenge := ⟨challengeId, o.serverId, sessionOrigin.getD o.sessionOrigin,
      device.deviceId, nonce, issuedAt, issuedAt + o.challengeTtlMs⟩
    let pending : PendingChallenge := ⟨challenge, serializeRemoteDeviceChallenge challenge⟩
    modify fun s => { s with challenges := s.challenges.set challengeId pending }
    modify (AuthState.record (.challenged challenge))
    pure challenge

def issueConnectionTicket (deviceId : Str) (peerId : Option Str) (grant : Option Grant) :
    Authenticating ConnectionTicket := do
  let _ ← cleanup p
  let device ← requireActiveDevice deviceId
  if peerId.any (fun id => !validId id) then fail .peerInvalid
  else
    let now ← currentReading p
    let token ← drawToken p 32
    let ticketId ← nextId p (js "ticket")
    let ticket : ConnectionTicket :=
      ⟨token, ticketId, o.serverId, o.sessionOrigin, device.deviceId, now + o.ticketTtlMs, peerId⟩
    modify fun s => { s with tickets := s.tickets.set token ⟨ticket, false⟩ }
    modify (AuthState.record (.issued ticket grant))
    let seen ← currentReading p
    modify (setDevice { device with lastSeenAt := seen })
    pure ticket

structure VerifyInput where
  deviceId : Str
  challengeId : Str
  deviceSignature : Str
  peerId : Option Str
  sessionOrigin : Option Str

def verifyChallenge (i : VerifyInput) : Authenticating ConnectionTicket := do
  let _ ← cleanup p
  let s ← get
  match s.challenges.get i.challengeId with
  | none => fail .challengeUnavailable
  | some pending =>
    if pending.challenge.deviceId ≠ i.deviceId ∨ pending.challenge.serverId ≠ o.serverId ∨
        pending.challenge.sessionOrigin ≠ i.sessionOrigin.getD o.sessionOrigin then
      fail .challengeUnavailable
    else
      let device ← requireActiveDevice i.deviceId
      if validSignature i.deviceSignature = false then fail .signatureInvalid
      else if p.verifies device.publicKeyPem (textEncode pending.signingInput)
          i.deviceSignature = false then
        fail .signatureInvalid
      else
        modify fun s => { s with challenges := s.challenges.delete i.challengeId }
        issueConnectionTicket p o device.deviceId i.peerId
          (some ⟨pending.challenge, device.publicKeyPem, i.sessionOrigin.getD o.sessionOrigin⟩)

def consumeTicket (token : Str) (peerId : Option Str) : Authenticating ConnectionTicket := do
  let swept ← cleanup p
  let s ← get
  match s.tickets.get token with
  | none => fail .ticketUnusable
  | some record =>
    if record.used then fail .ticketUnusable
    else
      modify fun s => { s with tickets := s.tickets.delete token }
      if record.ticket.peerId.isSome ∧ record.ticket.peerId ≠ peerId then fail .ticketElsewhere
      else
        let device ← requireActiveDevice record.ticket.deviceId
        let seen ← currentReading p
        modify (setDevice { device with lastSeenAt := seen })
        modify (AuthState.record (.accepted record.ticket peerId swept.1))
        pure record.ticket

inductive AuthOperation where
  | enroll (i : EnrollInput)
  | restore (devices : List RegisteredDevice)
  | revokeDevice (deviceId : Str)
  | createChallenge (deviceId : Str) (sessionOrigin : Option Str)
  | verify (i : VerifyInput)
  | issueConnectionTicket (deviceId : Str) (peerId : Option Str)
  | consumeTicket (token : Str) (peerId : Option Str)
  | cleanup
  /-- The holder of a key signs a message. -/
  | sign (key : Str) (message : Bytes)

def authStep (s : AuthState) : AuthOperation → AuthState
  | .enroll i => (enroll p i s).2
  | .restore devices => (restore p devices s).2
  | .revokeDevice deviceId => (revokeDevice p deviceId s).2
  | .createChallenge deviceId sessionOrigin => (createChallenge p o deviceId sessionOrigin s).2
  | .verify i => (verifyChallenge p o i s).2
  | .issueConnectionTicket deviceId peerId => (issueConnectionTicket p o deviceId peerId none s).2
  | .consumeTicket token peerId => (consumeTicket p token peerId s).2
  | .cleanup => (cleanup p s).2
  | .sign key message => s.record (.signed key message)

end Terminay.Remote
