import Terminay.Lib.OrderedMap
import Terminay.Remote.Tokens

/-!
# One-time pairing rooms

Every operation reads the clock once or more; a number that is no integer is `none`.
The records are ghosts: a room's `serial` is the place of its record, which keeps the
secret and the expiry the room was created with and what has concerned it since: each
reading by which rooms expire, each rotation or disabling, and the attempts at it.
-/

namespace Terminay.Remote
open Script

inductive RoomState where
  | active
  | consumed
  | expired
  | locked
  | rotated
deriving DecidableEq

inductive PairingError where
  | clockInvalid
  | expiryInvalid
  | limitReached
  | roomIdInvalid
  | secretInvalid
  | alreadyExists
  | entropyInvalid
  | collision
  | foreignAttempt
  | unavailable
  | secretTooLong
  | secretWrong
deriving DecidableEq

namespace PairingError

def message : PairingError → Str
  | clockInvalid => js "pairing clock is invalid"
  | expiryInvalid => js "pairing room expiry is invalid"
  | limitReached => js "pairing room limit reached"
  | roomIdInvalid => js "pairing room id is invalid"
  | alreadyExists => js "pairing room already exists"
  | entropyInvalid => js "pairing entropy generator returned an invalid length"
  | collision => js "pairing entropy collision limit reached"
  | foreignAttempt | unavailable => js "pairing room is unavailable"
  | secretInvalid | secretTooLong | secretWrong => js "pairing secret is invalid"

/-- The refusals that are about the arguments alone. -/
def isArgument : PairingError → Bool
  | expiryInvalid | roomIdInvalid | secretInvalid | alreadyExists | foreignAttempt
  | secretTooLong => true
  | _ => false

end PairingError

structure PairingOptions where
  serverId : Str
  sessionOrigin : Str
  maxRooms : ℕ
  maxFailedAttempts : ℕ
  defaultLifetimeMs : ℤ
  maxLifetimeMs : ℤ
  maxRooms_pos : 0 < maxRooms
  maxFailedAttempts_pos : 0 < maxFailedAttempts

structure PairingRoom (δ : Type) where
  roomId : Str
  serverId : Str
  sessionOrigin : Str
  expiresAt : ℤ
  secretDigest : δ
  state : RoomState
  failedAttempts : ℕ
  serial : ℕ

inductive RoomEntry where
  | checked (time : Option ℤ)
  | withdrawn
  | refused
  | accepted (secret : Str)
  | admitted (secret : Str)
deriving DecidableEq

structure RoomRecord where
  secret : Str
  expiresAt : ℤ
  history : List RoomEntry
deriving DecidableEq

def RoomRecord.add (entry : RoomEntry) (record : RoomRecord) : RoomRecord :=
  { record with history := record.history ++ [entry] }

structure PairingStore (δ : Type) where
  rooms : OrderedMap Str (PairingRoom δ)
  records : List RoomRecord

structure RoomTicket where
  roomId : Str
  serverId : Str
  sessionOrigin : Str
  expiresAt : ℤ
  secret : Str
deriving DecidableEq

structure RoomMetadata where
  roomId : Str
  serverId : Str
  sessionOrigin : Str
  expiresAt : ℤ
  state : RoomState
  failedAttempts : ℕ
deriving DecidableEq

structure PairingAttempt where
  roomId : Str
  serverId : Str
  sessionOrigin : Str
  secret : Str

structure PairingAdmission where
  roomId : Str
  serverId : Str
  sessionOrigin : Str
  consumedAt : Option ℤ
deriving DecidableEq

/-- An expiry that is passed in, or left to the default of a clock reading. -/
inductive Expiry where
  | given (expiresAt : Option ℤ)
  | default (now : Option ℤ)

def PAIRING_SECRET_BYTES : ℕ := 32
def MAX_GENERATION_ATTEMPTS : ℕ := 3
def maxSafe : ℤ := 9007199254740991

def isSafe (n : ℤ) : Bool := -maxSafe ≤ n && n ≤ maxSafe

def currentTime (now : Option ℤ) : Option ℤ := now.filter fun t => isSafe t && 0 ≤ t

def due (time : Option ℤ) (expiresAt : ℤ) : Bool :=
  match time with
  | none => true
  | some t => expiresAt ≤ t

variable {δ : Type}

namespace PairingRoom

def isActive (room : PairingRoom δ) : Bool := room.state == .active

def expire (time : Option ℤ) (room : PairingRoom δ) : PairingRoom δ :=
  if room.isActive && due time room.expiresAt then { room with state := .expired } else room

def withdraw (state : RoomState) (room : PairingRoom δ) : PairingRoom δ :=
  if room.isActive then { room with state := state } else room

def fail (limit : ℕ) (room : PairingRoom δ) : PairingRoom δ :=
  { room with
    failedAttempts := room.failedAttempts + 1
    state := if limit ≤ room.failedAttempts + 1 then .locked else room.state }

def snapshot (room : PairingRoom δ) : RoomMetadata :=
  ⟨room.roomId, room.serverId, room.sessionOrigin, room.expiresAt, room.state, room.failedAttempts⟩

end PairingRoom

namespace PairingStore

def initial : PairingStore δ := ⟨OrderedMap.empty, []⟩

def noteAll (entry : RoomEntry) (s : PairingStore δ) : PairingStore δ :=
  { s with records := s.records.map (RoomRecord.add entry) }

def note (serial : ℕ) (entry : RoomEntry) (s : PairingStore δ) : PairingStore δ :=
  { s with records := s.records.modify serial (RoomRecord.add entry) }

def expireRooms (now : Option ℤ) (s : PairingStore δ) : PairingStore δ :=
  noteAll (.checked (currentTime now))
    { s with rooms := s.rooms.map (PairingRoom.expire (currentTime now)) }

/-- The loop of `rotate` and `disable` over the active rooms. -/
def withdrawRooms (state : RoomState) (s : PairingStore δ) : PairingStore δ :=
  noteAll .withdrawn { s with rooms := s.rooms.map (PairingRoom.withdraw state) }

def pruneTerminalRooms (now : Option ℤ) (s : PairingStore δ) : PairingStore δ :=
  let s := expireRooms now s
  { s with rooms := s.rooms.filter PairingRoom.isActive }

def replace (key : Str) (room : PairingRoom δ) (s : PairingStore δ) : PairingStore δ :=
  { s with rooms := s.rooms.set key room }

end PairingStore

open PairingStore

variable [DecidableEq δ] (sha256 : Bytes → δ) (o : PairingOptions)

def Expiry.value : Expiry → Option ℤ
  | given expiresAt => expiresAt
  | default now => now.map (· + o.defaultLifetimeMs)

def validateExpiry (now : Option ℤ) (expiresAt : Option ℤ) : Except PairingError ℤ :=
  match currentTime now with
  | none => .error .clockInvalid
  | some t =>
    match expiresAt with
    | none => .error .expiryInvalid
    | some e =>
      if isSafe e = false ∨ e ≤ t ∨ o.maxLifetimeMs < e - t then .error .expiryInvalid else .ok e

def newRoom (serial : ℕ) (roomId secret : Str) (expiresAt : ℤ) : PairingRoom δ :=
  ⟨roomId, o.serverId, o.sessionOrigin, expiresAt, digest sha256 secret, .active, 0, serial⟩

def openRoom (roomId secret : Str) (expiresAt : ℤ) (s : PairingStore δ) :
    PairingStore δ × Except PairingError RoomTicket :=
  (⟨s.rooms.set roomId (newRoom sha256 o s.records.length roomId secret expiresAt),
    s.records ++ [⟨secret, expiresAt, []⟩]⟩,
    .ok ⟨roomId, o.serverId, o.sessionOrigin, expiresAt, secret⟩)

def entropy (size : ℕ) (bytes : Bytes) : Except PairingError Bytes :=
  if bytes.length = size then .ok bytes else .error .entropyInvalid

def candidate (draw : Bytes × Bytes) : Except PairingError (Str × Str) := do
  let id ← entropy 16 draw.1
  let secret ← entropy PAIRING_SECRET_BYTES draw.2
  pure (js "pair-" ++ toToken id, toToken secret)

def inUse (rooms : OrderedMap Str (PairingRoom δ)) (roomId secret : Str) : Bool :=
  (rooms.get roomId).isSome || rooms.values.any fun room => room.secretDigest == digest sha256 secret

def createUniqueCandidate (rooms : OrderedMap Str (PairingRoom δ)) :
    List (Bytes × Bytes) → Except PairingError (Str × Str)
  | [] => .error .collision
  | draw :: draws => do
    let found ← candidate draw
    if inUse sha256 rooms found.1 found.2 then createUniqueCandidate rooms draws else pure found

structure CreateInput where
  expiresAt : Expiry
  validated : Option ℤ
  pruned : Option ℤ
  draws : ℕ → Bytes × Bytes

def create (i : CreateInput) (s : PairingStore δ) :
    PairingStore δ × Except PairingError RoomTicket :=
  match validateExpiry o i.validated (i.expiresAt.value o) with
  | .error e => (s, .error e)
  | .ok expiresAt =>
    let s := pruneTerminalRooms i.pruned s
    if o.maxRooms ≤ s.rooms.size then (s, .error .limitReached)
    else
      match createUniqueCandidate sha256 s.rooms
          ((List.range MAX_GENERATION_ATTEMPTS).map i.draws) with
      | .error e => (s, .error e)
      | .ok found => openRoom sha256 o found.1 found.2 expiresAt s

structure IdentifiedInput where
  roomId : Str
  secret : Str
  expiresAt : Expiry
  validated : Option ℤ
  pruned : Option ℤ

def createIdentified (i : IdentifiedInput) (s : PairingStore δ) :
    PairingStore δ × Except PairingError RoomTicket :=
  match validateExpiry o i.validated (i.expiresAt.value o) with
  | .error e => (s, .error e)
  | .ok expiresAt =>
    let s := pruneTerminalRooms i.pruned s
    if o.maxRooms ≤ s.rooms.size then (s, .error .limitReached)
    else if validId i.roomId = false then (s, .error .roomIdInvalid)
    else if i.secret.length < 16 ∨ 256 < i.secret.length then (s, .error .secretInvalid)
    else if (s.rooms.get i.roomId).isSome then (s, .error .alreadyExists)
    else openRoom sha256 o i.roomId i.secret expiresAt s

structure RotateInput where
  expiresAt : Expiry
  validated : Option ℤ
  expired : Option ℤ
  revalidated : Option ℤ
  pruned : Option ℤ
  draws : ℕ → Bytes × Bytes

def rotate (i : RotateInput) (s : PairingStore δ) :
    PairingStore δ × Except PairingError RoomTicket :=
  match validateExpiry o i.validated (i.expiresAt.value o) with
  | .error e => (s, .error e)
  | .ok expiresAt =>
    create sha256 o ⟨.given (some expiresAt), i.revalidated, i.pruned, i.draws⟩
      (withdrawRooms .rotated (expireRooms i.expired s))

def rotateIdentified (expired : Option ℤ) (i : IdentifiedInput) (s : PairingStore δ) :
    PairingStore δ × Except PairingError RoomTicket :=
  createIdentified sha256 o i (withdrawRooms .rotated (expireRooms expired s))

def addressed (attempt : PairingAttempt) (s : PairingStore δ) :
    Except PairingError (PairingRoom δ) :=
  if validId attempt.roomId = false ∨ attempt.serverId ≠ o.serverId ∨
      attempt.sessionOrigin ≠ o.sessionOrigin then .error .foreignAttempt
  else
    match s.rooms.get attempt.roomId with
    | none => .error .unavailable
    | some room => if room.isActive then .ok room else .error .unavailable

def consume (attempt : PairingAttempt) (now consumedAt : Option ℤ) (s : PairingStore δ) :
    PairingStore δ × Except PairingError PairingAdmission :=
  let s := expireRooms now s
  match addressed o attempt s with
  | .error e => (s, .error e)
  | .ok room =>
    if 256 < attempt.secret.length then (note room.serial .refused s, .error .secretTooLong)
    else if room.secretDigest ≠ digest sha256 attempt.secret then
      (replace attempt.roomId (room.fail o.maxFailedAttempts) (note room.serial .refused s),
        .error .secretWrong)
    else
      (replace attempt.roomId { room with state := .consumed }
        (note room.serial (.admitted attempt.secret) s),
        .ok ⟨room.roomId, room.serverId, room.sessionOrigin, consumedAt⟩)

def assertAvailable (attempt : PairingAttempt) (now : Option ℤ) (s : PairingStore δ) :
    PairingStore δ × Except PairingError Unit :=
  let s := expireRooms now s
  match addressed o attempt s with
  | .error e => (s, .error e)
  | .ok room =>
    if 256 < attempt.secret.length then (note room.serial .refused s, .error .secretTooLong)
    else if room.secretDigest ≠ digest sha256 attempt.secret then
      (note room.serial .refused s, .error .secretWrong)
    else (note room.serial (.accepted attempt.secret) s, .ok ())

inductive PairingOperation where
  | create (i : CreateInput)
  | createIdentified (i : IdentifiedInput)
  | rotate (i : RotateInput)
  | rotateIdentified (expired : Option ℤ) (i : IdentifiedInput)
  | consume (attempt : PairingAttempt) (now consumedAt : Option ℤ)
  | assertAvailable (attempt : PairingAttempt) (now : Option ℤ)
  | metadata (roomId : Str) (now : Option ℤ)
  | list (now : Option ℤ)
  | cleanup (now : Option ℤ)
  | disable (now : Option ℤ)

inductive PairingAnswer where
  | room (ticket : RoomTicket)
  | admission (admission : PairingAdmission)
  | available
  | metadata (found : Option RoomMetadata)
  | rooms (all : List RoomMetadata)
  | reclaimed (count : ℕ)
  | disabled

def answering {α : Type} (f : α → PairingAnswer) (r : PairingStore δ × Except PairingError α) :
    PairingStore δ × Except PairingError PairingAnswer :=
  (r.1, r.2.map f)

def perform (operation : PairingOperation) (s : PairingStore δ) :
    PairingStore δ × Except PairingError PairingAnswer :=
  match operation with
  | .create i => answering .room (create sha256 o i s)
  | .createIdentified i => answering .room (createIdentified sha256 o i s)
  | .rotate i => answering .room (rotate sha256 o i s)
  | .rotateIdentified expired i => answering .room (rotateIdentified sha256 o expired i s)
  | .consume attempt now consumedAt =>
    answering .admission (consume sha256 o attempt now consumedAt s)
  | .assertAvailable attempt now =>
    answering (fun _ => .available) (assertAvailable sha256 o attempt now s)
  | .metadata roomId now =>
    let s := expireRooms now s
    (s, .ok (.metadata ((s.rooms.get roomId).map PairingRoom.snapshot)))
  | .list now =>
    let s := expireRooms now s
    (s, .ok (.rooms (s.rooms.values.map PairingRoom.snapshot)))
  | .cleanup now =>
    let after := pruneTerminalRooms now s
    (after, .ok (.reclaimed (s.rooms.size - after.rooms.size)))
  | .disable now => (withdrawRooms .expired (expireRooms now s), .ok .disabled)

def pairingStep (s : PairingStore δ) (operation : PairingOperation) : PairingStore δ :=
  (perform sha256 o operation s).1

end Terminay.Remote
