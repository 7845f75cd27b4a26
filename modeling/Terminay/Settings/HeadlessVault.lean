import Terminay.Lib.Effects
import Terminay.Lib.OrderedMap
import Terminay.Lib.Outcome
import Terminay.Script.Unicode

/-!
# The passphrase vault

A call runs to its next await at once; the answer of a key derivation or of a storage
write is a step. Encryption is ideal: what was sealed opens under its own key and under
no other. The storage keeps an envelope as it was written. Zeroing buffers that are no
longer held is left out. Three fields are ghosts: the secrets that the calls which have
resolved leave behind, the first passphrase, and the number of unlocks.
-/

namespace Terminay.Settings
open Script Outcome

def MIN_PASSPHRASE_BYTES : ℕ := 12
def MAX_VAULT_UNLOCK_BYTES : ℕ := 4096
def MAX_VAULT_SECRET_BYTES : ℕ := 1024 * 1024
def MAX_VAULT_LABEL_BYTES : ℕ := 256
def MAX_ENTRIES : ℕ := 4096
def MAX_ENVELOPE_BYTES : ℕ := 8 * 1024 * 1024
def MAX_REVISION : ℕ := 2 ^ 31 - 2

section Envelopes
variable {τ : Type}

structure CipherRecord (τ : Type) where
  nonce : Bytes
  box : τ
  deriving DecidableEq

structure EnvelopeEntry (τ : Type) where
  id : Str
  label : Str
  /-- None is a number that is not finite. -/
  updatedAt : Option ℤ
  record : CipherRecord τ
  deriving DecidableEq

structure KeyEnvelope (τ : Type) where
  salt : Bytes
  record : CipherRecord τ
  deriving DecidableEq

structure VaultEnvelope (τ : Type) where
  serverId : Str
  revision : ℕ
  keyEnvelope : KeyEnvelope τ
  entries : List (EnvelopeEntry τ)
  manifest : CipherRecord τ
  deriving DecidableEq

/-- The data a record authenticates beside its text. -/
inductive Aad (τ : Type) where
  | entry (serverId id : Str)
  | key (serverId : Str)
  | manifest (serverId : Str) (revision : ℕ) (keyEnvelope : KeyEnvelope τ)
      (entries : List (EnvelopeEntry τ))

/-- What the vault is given: its server, ideal ciphers, key derivations, random bytes
and the size of an envelope's text. -/
structure VaultPlatform (τ : Type) where
  serverId : Str
  scrypt : Bytes → Bytes → Bytes
  hkdf : Bytes → Str → Bytes
  encipher : Bytes → Bytes → Aad τ → Bytes → τ
  decipher : Bytes → Bytes → Aad τ → τ → Option Bytes
  ciphertextLength : τ → ℕ
  random : ℕ → ℕ → Bytes
  byteLength : VaultEnvelope τ → ℕ
  decipher_encipher : ∀ key nonce aad text, decipher key nonce aad (encipher key nonce aad text) = some text
  decipher_other : ∀ key key' nonce aad text, key ≠ key' →
    decipher key' nonce aad (encipher key nonce aad text) = none
  encipher_length : ∀ key nonce aad text, ciphertextLength (encipher key nonce aad text) = text.length
  random_length : ∀ n size, (random n size).length = size

end Envelopes

section Sealing
variable {τ : Type} (p : VaultPlatform τ)

/-- The state is the number of draws so far. -/
abbrev Drawing := Fallible ℕ Str

def randomBytes (size : ℕ) : Drawing Bytes := do
  let n ← .get
  .modify (· + 1)
  pure (p.random n size)

def allocateNonce (usedNonces : List Bytes) : ℕ → Drawing Bytes
  | 0 => .fail (js "could not allocate vault nonce")
  | attempts + 1 => do
    let candidate ← randomBytes p 12
    if usedNonces.contains candidate then allocateNonce usedNonces attempts else pure candidate

def encryptAesGcm (plaintext key : Bytes) (aad : Aad τ) (usedNonces : List Bytes) :
    Drawing (CipherRecord τ) := do
  let nonce ← allocateNonce p usedNonces 8
  pure ⟨nonce, p.encipher key nonce aad plaintext⟩

def decryptAesGcm (record : CipherRecord τ) (key : Bytes) (aad : Aad τ) : Except Str Bytes :=
  demand (p.decipher key record.nonce aad record.box) (js "vault decryption failed")

def manifestAad (envelope : VaultEnvelope τ) : Aad τ :=
  .manifest envelope.serverId envelope.revision envelope.keyEnvelope envelope.entries

def createEnvelope (keyEnvelope : KeyEnvelope τ) (key : Bytes) (entries : List (EnvelopeEntry τ))
    (revision : ℕ) : Drawing (VaultEnvelope τ) := do
  .check (refuseIf (MAX_REVISION < revision) (js "vault revision limit reached"))
  let manifest ← encryptAesGcm p [] (p.hkdf key p.serverId)
    (.manifest p.serverId revision keyEnvelope entries) []
  pure ⟨p.serverId, revision, keyEnvelope, entries, manifest⟩

def verifyManifest (envelope : VaultEnvelope τ) (key : Bytes) : Except Str Unit := do
  let plaintext ← decryptAesGcm p envelope.manifest (p.hkdf key envelope.serverId)
    (manifestAad envelope)
  refuseIf (plaintext ≠ []) (js "vault unlock failed")

def isVaultIdUnit (u : UInt16) : Bool :=
  isLetter u || isDigit u || u == unit '.' || u == unit '_' || u == unit ':' || u == unit '-'

/-- `VAULT_ID_PATTERN` -/
def vaultIdPattern : Str → Bool
  | [] => false
  | u :: rest => (isLetter u || isDigit u) && rest.length ≤ 255 && rest.all isVaultIdUnit

def labelFits (label : Str) : Bool := (textEncode label).length ≤ MAX_VAULT_LABEL_BYTES

def isStoredTime : Option ℤ → Bool
  | none => false
  | some n => 0 ≤ n && n ≤ 2 ^ 53 - 1

def entryParses (entry : EnvelopeEntry τ) : Bool :=
  vaultIdPattern entry.id && labelFits entry.label && isStoredTime entry.updatedAt &&
    entry.record.nonce.length == 12 &&
    p.ciphertextLength entry.record.box ≤ MAX_VAULT_SECRET_BYTES

/-- `parseEnvelope` accepts the text of this envelope. -/
def parseEnvelope (envelope : VaultEnvelope τ) : Bool :=
  p.byteLength envelope ≤ MAX_ENVELOPE_BYTES && envelope.serverId == p.serverId &&
    envelope.entries.length ≤ MAX_ENTRIES && envelope.revision ≤ MAX_REVISION &&
    envelope.keyEnvelope.salt.length == 16 && envelope.keyEnvelope.record.nonce.length == 12 &&
    p.ciphertextLength envelope.keyEnvelope.record.box == 32 &&
    envelope.manifest.nonce.length == 12 && p.ciphertextLength envelope.manifest.box == 0 &&
    decide (envelope.entries.map EnvelopeEntry.id).Nodup && envelope.entries.all (entryParses p)

def VaultEnvelope.findEntry (envelope : VaultEnvelope τ) (id : Str) : Option (EnvelopeEntry τ) :=
  envelope.entries.find? fun entry => entry.id == id

def openEnvelope (envelope : VaultEnvelope τ) (protectorKey : Bytes) : Except Str Bytes := do
  let key ← decryptAesGcm p envelope.keyEnvelope.record protectorKey (.key p.serverId)
  refuseIf (key.length ≠ 32) (js "invalid data key")
  verifyManifest p envelope key
  .ok key

end Sealing

section Vault
variable {τ : Type}

structure VaultSecretInput where
  id : Str
  value : Bytes
  label : Option Str
  deriving DecidableEq

inductive VaultOperation where
  | unlock (secret : Bytes)
  | put (input : VaultSecretInput) (now : Option ℤ)
  | replace (input : VaultSecretInput) (now : Option ℤ)
  | remove (id : Str)
  | rotate
  | withSecret (id : Str)
  deriving DecidableEq

/-- What a resolved call changes of the secrets. -/
inductive SecretChange where
  | written (id : Str) (value : Bytes)
  | removed (id : Str)
  deriving DecidableEq

inductive VaultAnswer where
  | unlocked
  | reference (id : Str)
  | removed (found : Bool)
  | rotated
  | secret (value : Bytes)
  | rejected (message : Str)
  deriving DecidableEq

inductive VaultPhase (τ : Type) where
  /-- A first unlock waits for its key. -/
  | derivingFirst (passphrase dataKey salt : Bytes)
  | derivingKey (passphrase salt : Bytes)
  | creating (candidate : VaultEnvelope τ) (passphrase key : Bytes)
  | writing (change : SecretChange) (candidate : VaultEnvelope τ)
  | rotating (candidate : VaultEnvelope τ) (nextKey : Bytes)
  | done (answer : VaultAnswer)
  deriving DecidableEq

structure HeadlessVault (τ : Type) where
  envelope : Option (VaultEnvelope τ)
  dataEncryptionKey : Option Bytes
  protectorKey : Option Bytes
  unavailable : Bool
  stored : Option (VaultEnvelope τ)
  drawn : ℕ
  implied : OrderedMap Str Bytes
  /-- What the vault was created with. -/
  passphrase : Option Bytes
  /-- How many unlocks have resolved. -/
  unlocks : ℕ

structure VaultRun (τ : Type) where
  vault : HeadlessVault τ
  calls : List (VaultPhase τ)

def applyChange (implied : OrderedMap Str Bytes) : SecretChange → OrderedMap Str Bytes
  | .written id value => implied.set id value
  | .removed id => implied.delete id

def changeAnswer : SecretChange → VaultAnswer
  | .written id _ => .reference id
  | .removed _ => .removed true

variable (p : VaultPlatform τ)

def requireKey (v : HeadlessVault τ) : Except Str Bytes := do
  refuseIf (v.unavailable = true) (js "vault unavailable")
  demand v.dataEncryptionKey (js "vault is locked")

def persistable (candidate : VaultEnvelope τ) : Except Str Unit :=
  refuseIf (MAX_ENVELOPE_BYTES < p.byteLength candidate)
    (js "vault envelope exceeds its size limit")

/-- `Math.max(0, Math.floor(now()))` -/
def updatedAt (now : Option ℤ) : Option ℤ := now.map fun n => max 0 n

def firstEnvelope (passphrase dataKey salt : Bytes) : Drawing (VaultEnvelope τ) := do
  let wrapped ← encryptAesGcm p dataKey (p.scrypt passphrase salt) (.key p.serverId) []
  let candidate ← createEnvelope p ⟨salt, wrapped⟩ dataKey [] 0
  .check (persistable p candidate)
  pure candidate

def checkInput (input : VaultSecretInput) : Except Str Unit := do
  refuseIf (vaultIdPattern input.id = false) (js "vault secret id is invalid")
  refuseIf (MAX_VAULT_SECRET_BYTES < input.value.length) (js "secret exceeds the limit")

def placeEntry (entries : List (EnvelopeEntry τ)) (entry : EnvelopeEntry τ) (replace : Bool) :
    Except Str (List (EnvelopeEntry τ)) :=
  if replace then
    .ok (entries.set (entries.findIdx fun found => found.id == entry.id) entry)
  else if MAX_ENTRIES ≤ entries.length then .error (js "vault entry count exceeds the limit")
  else .ok (entries ++ [entry])

def writeEntry (v : HeadlessVault τ) (input : VaultSecretInput) (now : Option ℤ) (replace : Bool) :
    Drawing (VaultEnvelope τ) := do
  let key ← .check (requireKey v)
  .check (checkInput input)
  let current ← .check (demand v.envelope (js "vault is locked"))
  .check (refuseIf (replace = false ∧ (current.findEntry input.id).isSome = true)
    (js "secret already exists"))
  .check (refuseIf (replace = true ∧ (current.findEntry input.id).isSome = false)
    (js "missing secret"))
  let label := input.label.getD []
  .check (refuseIf (labelFits label = false) (js "secret label exceeds the limit"))
  let usedNonces := (current.entries.map fun entry => entry.record.nonce) ++ [current.manifest.nonce]
  let record ← encryptAesGcm p input.value key (.entry p.serverId input.id) usedNonces
  let entries ← .check (placeEntry current.entries ⟨input.id, label, updatedAt now, record⟩ replace)
  let candidate ← createEnvelope p current.keyEnvelope key entries (current.revision + 1)
  .check (persistable p candidate)
  pure candidate

def removeEntry (v : HeadlessVault τ) (id : Str) : Drawing (Option (VaultEnvelope τ)) := do
  let key ← .check (requireKey v)
  match v.envelope with
  | none => pure none
  | some current =>
    if (current.findEntry id).isSome then do
      let entries := current.entries.eraseIdx (current.entries.findIdx fun entry => entry.id == id)
      let candidate ← createEnvelope p current.keyEnvelope key entries (current.revision + 1)
      .check (persistable p candidate)
      pure (some candidate)
    else pure none

def reencrypt (currentKey nextKey : Bytes) :
    List (EnvelopeEntry τ) → List Bytes → Drawing (List (EnvelopeEntry τ))
  | [], _ => pure []
  | entry :: rest, usedNonces => do
    let plaintext ← .check (decryptAesGcm p entry.record currentKey (.entry p.serverId entry.id))
    let record ← encryptAesGcm p plaintext nextKey (.entry p.serverId entry.id) usedNonces
    let entries ← reencrypt currentKey nextKey rest (usedNonces ++ [record.nonce])
    pure (⟨entry.id, entry.label, entry.updatedAt, record⟩ :: entries)

def rotated (v : HeadlessVault τ) : Drawing (VaultEnvelope τ × Bytes) := do
  let currentKey ← .check (requireKey v)
  let protectorKey ← .check (demand v.protectorKey (js "vault is locked"))
  let current ← .check (demand v.envelope (js "vault is locked"))
  .check (refuseIf (MAX_REVISION ≤ current.revision) (js "vault revision limit reached"))
  let nextKey ← randomBytes p 32
  let wrapped ← encryptAesGcm p nextKey protectorKey (.key p.serverId) []
  let entries ← reencrypt p currentKey nextKey current.entries [wrapped.nonce]
  let candidate ← createEnvelope p { current.keyEnvelope with record := wrapped } nextKey entries
    (current.revision + 1)
  .check (persistable p candidate)
  pure (candidate, nextKey)

def withSecret (v : HeadlessVault τ) (id : Str) : Except Str Bytes := do
  let key ← requireKey v
  let entry ← demand (v.envelope.bind fun envelope => envelope.findEntry id) (js "missing secret")
  decryptAesGcm p entry.record key (.entry p.serverId id)

def checkPassphrase (v : HeadlessVault τ) (secret : Bytes) : Except Str Unit := do
  refuseIf (v.unavailable = true) (js "vault unavailable")
  refuseIf (secret.length < MIN_PASSPHRASE_BYTES ∨ MAX_VAULT_UNLOCK_BYTES < secret.length)
    (js "unlock secret length is outside the policy")

def goOn {α : Type} (v : HeadlessVault τ) (x : Drawing α) (next : α → VaultPhase τ) :
    HeadlessVault τ × VaultPhase τ :=
  match x v.drawn with
  | (.ok a, drawn) => ({ v with drawn := drawn }, next a)
  | (.error e, drawn) => ({ v with drawn := drawn }, .done (.rejected e))

def beginUnlock (v : HeadlessVault τ) (secret : Bytes) : Drawing (VaultPhase τ) := do
  .check (checkPassphrase v secret)
  match v.envelope with
  | some envelope => pure (.derivingKey secret envelope.keyEnvelope.salt)
  | none => do
    let dataKey ← randomBytes p 32
    let salt ← randomBytes p 16
    pure (.derivingFirst secret dataKey salt)

def begin (v : HeadlessVault τ) : VaultOperation → HeadlessVault τ × VaultPhase τ
  | .unlock secret => goOn v (beginUnlock p v secret) id
  | .put input now =>
    goOn v (writeEntry p v input now false) (.writing (.written input.id input.value))
  | .replace input now =>
    goOn v (writeEntry p v input now true) (.writing (.written input.id input.value))
  | .remove id =>
    goOn v (removeEntry p v id) fun candidate =>
      match candidate with
      | none => .done (.removed false)
      | some candidate => .writing (.removed id) candidate
  | .rotate => goOn v (rotated p v) fun next => .rotating next.1 next.2
  | .withSecret id => goOn v (.check (withSecret p v id)) fun value => .done (.secret value)

def unlocked (v : HeadlessVault τ) (key protectorKey : Bytes) : HeadlessVault τ :=
  { v with
    dataEncryptionKey := some key
    protectorKey := some protectorKey
    unlocks := v.unlocks + 1 }

def written (v : HeadlessVault τ) (candidate : VaultEnvelope τ) : HeadlessVault τ :=
  { v with
    envelope := some candidate
    stored := some candidate }

def finish (v : HeadlessVault τ) (succeeded : Bool) : VaultPhase τ → HeadlessVault τ × VaultPhase τ
  | .derivingFirst passphrase dataKey salt =>
    if succeeded then
      goOn v (firstEnvelope p passphrase dataKey salt) fun candidate =>
        .creating candidate passphrase dataKey
    else (v, .done (.rejected (js "scrypt failed")))
  | .derivingKey passphrase salt =>
    if succeeded then
      match v.envelope.map fun envelope => openEnvelope p envelope (p.scrypt passphrase salt) with
      | some (.ok key) => (unlocked v key (p.scrypt passphrase salt), .done .unlocked)
      | _ => (v, .done (.rejected (js "vault unlock failed")))
    else (v, .done (.rejected (js "vault unlock failed")))
  | .creating candidate passphrase key =>
    if succeeded then
      (unlocked { written v candidate with passphrase := some passphrase } key
        (p.scrypt passphrase candidate.keyEnvelope.salt), .done .unlocked)
    else (v, .done (.rejected (js "vault storage write failed")))
  | .writing change candidate =>
    if succeeded then
      ({ written v candidate with implied := applyChange v.implied change },
        .done (changeAnswer change))
    else (v, .done (.rejected (js "vault storage write failed")))
  | .rotating candidate nextKey =>
    if succeeded then
      ({ written v candidate with dataEncryptionKey := some nextKey }, .done .rotated)
    else (v, .done (.rejected (js "vault storage write failed")))
  | .done answer => (v, .done answer)

def lock (v : HeadlessVault τ) : HeadlessVault τ :=
  { v with
    dataEncryptionKey := none
    protectorKey := none }

inductive VaultInput where
  | start (operation : VaultOperation)
  | complete (n : ℕ) (succeeded : Bool)
  | lock
  deriving DecidableEq

def vaultStep (s : VaultRun τ) : VaultInput → VaultRun τ
  | .start operation =>
    let moved := begin p s.vault operation
    ⟨moved.1, s.calls ++ [moved.2]⟩
  | .complete n succeeded =>
    match s.calls[n]? with
    | none => s
    | some phase =>
      let moved := finish p s.vault succeeded phase
      ⟨moved.1, s.calls.set n moved.2⟩
  | .lock => ⟨lock s.vault, s.calls⟩

end Vault

end Terminay.Settings
