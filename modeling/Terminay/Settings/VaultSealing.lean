import Terminay.Lib.Lists
import Terminay.Settings.HeadlessVault

/-!
# What the envelopes of a vault hold

An envelope holds a set of secrets under a passphrase and a data key when it parses, its keys and
manifest open, and its entries seal exactly those secrets.
-/

namespace Terminay.Settings
open Script Outcome

variable {τ : Type} {p : VaultPlatform τ}

section Drawings

structure Seals (p : VaultPlatform τ) (record : CipherRecord τ) (key : Bytes) (aad : Aad τ)
    (text : Bytes) : Prop where
  nonce : record.nonce.length = 12
  box : record.box = p.encipher key record.nonce aad text

theorem Seals.decrypt {record : CipherRecord τ} {key : Bytes} {aad : Aad τ} {text : Bytes}
    (h : Seals p record key aad text) : decryptAesGcm p record key aad = .ok text := by
  rw [decryptAesGcm, h.box, p.decipher_encipher]
  rfl

theorem Seals.decrypt_other {record : CipherRecord τ} {key key' : Bytes} {aad : Aad τ}
    {text found : Bytes} (h : Seals p record key aad text)
    (hfound : decryptAesGcm p record key' aad = .ok found) : key' = key ∧ found = text := by
  by_cases hkey : key = key'
  · subst hkey
    rw [h.decrypt] at hfound
    cases hfound
    exact ⟨rfl, rfl⟩
  · rw [decryptAesGcm, h.box, p.decipher_other _ _ _ _ _ hkey] at hfound
    cases hfound

theorem Seals.length {record : CipherRecord τ} {key : Bytes} {aad : Aad τ} {text : Bytes}
    (h : Seals p record key aad text) : p.ciphertextLength record.box = text.length := by
  rw [h.box, p.encipher_length]

variable {n : ℕ}

theorem randomBytes_length (size : ℕ) :
    Fallible.Ends (randomBytes p size) n (fun bytes _ => bytes.length = size) fun _ => True := by
  simp only [randomBytes, Fallible.ends_bind, Fallible.ends_get, Fallible.ends_modify, Fallible.ends_pure]
  exact p.random_length _ _

theorem allocateNonce_length (usedNonces : List Bytes) (attempts : ℕ) :
    Fallible.Ends (allocateNonce p usedNonces attempts) n (fun nonce _ => nonce.length = 12)
      fun _ => True := by
  induction attempts generalizing n with
  | zero => trivial
  | succ attempts ih =>
    apply (randomBytes_length 12).bind fun _ h => h
    intro candidate m hlength
    split_ifs
    · exact ih
    · exact hlength

theorem encryptAesGcm_seals (plaintext key : Bytes) (aad : Aad τ) (usedNonces : List Bytes) :
    Fallible.Ends (encryptAesGcm p plaintext key aad usedNonces) n
      (fun record _ => Seals p record key aad plaintext) fun _ => True := by
  apply (allocateNonce_length usedNonces 8).bind fun _ h => h
  intro nonce m hlength
  exact ⟨hlength, rfl⟩

structure Sealed (p : VaultPlatform τ) (keyEnvelope : KeyEnvelope τ) (key : Bytes)
    (entries : List (EnvelopeEntry τ)) (revision : ℕ) (envelope : VaultEnvelope τ) : Prop where
  fields : envelope = ⟨p.serverId, revision, keyEnvelope, entries, envelope.manifest⟩
  bound : revision ≤ MAX_REVISION
  manifest : Seals p envelope.manifest (p.hkdf key p.serverId)
    (.manifest p.serverId revision keyEnvelope entries) []

theorem createEnvelope_sealed (keyEnvelope : KeyEnvelope τ) (key : Bytes)
    (entries : List (EnvelopeEntry τ)) (revision : ℕ) :
    Fallible.Ends (createEnvelope p keyEnvelope key entries revision) n
      (fun envelope _ => Sealed p keyEnvelope key entries revision envelope) fun _ => True := by
  simp only [createEnvelope, Fallible.ends_bind, Fallible.ends_check, Fallible.ends_pure]
  refine ⟨fun _ hbound => ?_, fun _ => trivial⟩
  apply (encryptAesGcm_seals _ _ _ _).mono _ fun _ h => h
  intro manifest m hseals
  exact ⟨rfl, Nat.le_of_not_lt (refuseIf_ok.mp hbound), hseals⟩

end Drawings

section Holding
variable {K : Bytes} {implied : OrderedMap Str Bytes}

structure EntryHolds (p : VaultPlatform τ) (K : Bytes) (implied : OrderedMap Str Bytes)
    (entry : EnvelopeEntry τ) : Prop where
  parses : entryParses p entry = true
  secret : ∃ value, implied.get entry.id = some value ∧
    Seals p entry.record K (.entry p.serverId entry.id) value

structure EntriesHold (p : VaultPlatform τ) (K : Bytes) (implied : OrderedMap Str Bytes)
    (entries : List (EnvelopeEntry τ)) : Prop where
  each : ∀ entry ∈ entries, EntryHolds p K implied entry
  nodup : (entries.map EnvelopeEntry.id).Nodup
  all : ∀ id value, implied.get id = some value → ∃ entry ∈ entries, entry.id = id
  bound : entries.length ≤ MAX_ENTRIES

structure Holds (p : VaultPlatform τ) (passphrase K : Bytes) (implied : OrderedMap Str Bytes)
    (e : VaultEnvelope τ) : Prop where
  parses : parseEnvelope p e = true
  keyLength : K.length = 32
  wrapped : Seals p e.keyEnvelope.record (p.scrypt passphrase e.keyEnvelope.salt)
    (.key p.serverId) K
  manifest : Seals p e.manifest (p.hkdf K p.serverId) (manifestAad e) []
  entries : EntriesHold p K implied e.entries

variable {passphrase : Bytes} {e : VaultEnvelope τ}

theorem Holds.serverId (h : Holds p passphrase K implied e) : e.serverId = p.serverId := by
  have hparses := h.parses
  simp only [parseEnvelope, Bool.and_eq_true, beq_iff_eq] at hparses
  exact hparses.1.1.1.1.1.1.1.1.1.2

theorem Holds.salt (h : Holds p passphrase K implied e) : e.keyEnvelope.salt.length = 16 := by
  have hparses := h.parses
  simp only [parseEnvelope, Bool.and_eq_true, beq_iff_eq] at hparses
  exact hparses.1.1.1.1.1.1.2

theorem Holds.opens (h : Holds p passphrase K implied e) :
    openEnvelope p e (p.scrypt passphrase e.keyEnvelope.salt) = .ok K := by
  have hmanifest := h.manifest.decrypt
  rw [← h.serverId] at hmanifest
  simp only [openEnvelope, verifyManifest, h.wrapped.decrypt, hmanifest, bind, Except.bind, refuseIf,
    h.keyLength, not_true_eq_false, ne_eq, if_false]

theorem Holds.opened (h : Holds p passphrase K implied e) {protectorKey key : Bytes}
    (hopen : openEnvelope p e protectorKey = .ok key) :
    protectorKey = p.scrypt passphrase e.keyEnvelope.salt ∧ key = K := by
  obtain ⟨found, hfound, hrest⟩ := bind_ok.mp hopen
  obtain ⟨_, -, hrest⟩ := bind_ok.mp hrest
  obtain ⟨_, -, hrest⟩ := bind_ok.mp hrest
  cases hrest
  exact h.wrapped.decrypt_other hfound

theorem EntriesHold.find {entries : List (EnvelopeEntry τ)} (h : EntriesHold p K implied entries)
    (id : Str) :
    (entries.find? fun entry => entry.id == id).bind (fun entry =>
      p.decipher K entry.record.nonce (.entry p.serverId id) entry.record.box) = implied.get id := by
  rcases hfind : entries.find? fun entry => entry.id == id with _ | entry
  · rcases hget : implied.get id with _ | value
    · simp [hfind]
    · obtain ⟨entry, hmem, hid⟩ := h.all id value hget
      have hnone := List.find?_eq_none.mp hfind entry hmem
      simp [hid] at hnone
  · have hid : entry.id = id := by simpa using List.find?_some hfind
    obtain ⟨value, hget, hseals⟩ := (h.each entry (List.mem_of_find?_eq_some hfind)).secret
    rw [hfind, Option.bind_some, hseals.box, ← hid, p.decipher_encipher, hget]

theorem EntriesHold.present {entries : List (EnvelopeEntry τ)} (h : EntriesHold p K implied entries)
    (id : Str) :
    (entries.find? fun entry => entry.id == id).isSome = (implied.get id).isSome := by
  have hfind := h.find id
  rcases hentry : entries.find? fun entry => entry.id == id with _ | entry
  · rw [hentry] at hfind
    rw [hentry, ← hfind]
    rfl
  · have hid : entry.id = id := by simpa using List.find?_some hentry
    obtain ⟨value, hget, -⟩ := (h.each entry (List.mem_of_find?_eq_some hentry)).secret
    rw [hentry, ← hid, hget]
    rfl

theorem entryParses_seals {entry : EnvelopeEntry τ} {aad : Aad τ} {value : Bytes}
    (hid : vaultIdPattern entry.id = true) (hlabel : labelFits entry.label = true)
    (htime : isStoredTime entry.updatedAt = true) (hseals : Seals p entry.record K aad value)
    (hsize : value.length ≤ MAX_VAULT_SECRET_BYTES) : entryParses p entry = true := by
  simp [entryParses, hid, hlabel, htime, hseals.nonce, hseals.length, hsize]

theorem EntriesHold.concat {entries : List (EnvelopeEntry τ)} (h : EntriesHold p K implied entries)
    {entry : EnvelopeEntry τ} {value : Bytes} (hparses : entryParses p entry = true)
    (hseals : Seals p entry.record K (.entry p.serverId entry.id) value)
    (hfresh : implied.get entry.id = none) (hroom : entries.length < MAX_ENTRIES) :
    EntriesHold p K (implied.set entry.id value) (entries ++ [entry]) := by
  have hother : ∀ found ∈ entries, found.id ≠ entry.id := by
    intro found hfound hsame
    obtain ⟨v, hget, -⟩ := (h.each found hfound).secret
    rw [hsame, hfresh] at hget
    cases hget
  constructor
  case each =>
    intro found hfound
    rcases List.mem_append.mp hfound with hfound | hfound
    · refine ⟨(h.each found hfound).parses, ?_⟩
      rw [OrderedMap.get_set_of_ne _ _ (hother found hfound)]
      exact (h.each found hfound).secret
    · obtain rfl := List.mem_singleton.mp hfound
      exact ⟨hparses, value, OrderedMap.get_set_self _ _ _, hseals⟩
  case nodup =>
    rw [List.map_append, List.map_singleton, List.nodup_append]
    refine ⟨h.nodup, List.nodup_singleton _, fun id hid id' hid' => ?_⟩
    obtain ⟨found, hfound, rfl⟩ := List.mem_map.mp hid
    rw [List.mem_singleton.mp hid']
    exact hother found hfound
  case all =>
    intro id found hget
    rw [OrderedMap.get_set] at hget
    split_ifs at hget with hid
    · exact ⟨entry, List.mem_append_right _ (List.mem_singleton_self _), hid.symm⟩
    · obtain ⟨old, hold, hsame⟩ := h.all id found hget
      exact ⟨old, List.mem_append_left _ hold, hsame⟩
  case bound =>
    rw [List.length_append, List.length_singleton]
    exact hroom

theorem found_at {entries : List (EnvelopeEntry τ)} {id : Str}
    (h : (entries.find? fun entry => entry.id == id).isSome = true) :
    ∃ entry, entries[entries.findIdx fun entry => entry.id == id]? = some entry ∧ entry.id = id := by
  obtain ⟨entry, hfind⟩ := Option.isSome_iff_exists.mp h
  have hid : entry.id = id := by simpa using List.find?_some hfind
  have hlt : (entries.findIdx fun entry => entry.id == id) < entries.length :=
    List.findIdx_lt_length_of_exists ⟨entry, List.mem_of_find?_eq_some hfind, by simp [hid]⟩
  refine ⟨entries[entries.findIdx fun entry => entry.id == id], List.getElem?_eq_getElem hlt, ?_⟩
  simpa using List.findIdx_getElem (w := hlt)

theorem EntriesHold.set {entries : List (EnvelopeEntry τ)} (h : EntriesHold p K implied entries)
    {entry : EnvelopeEntry τ} {value : Bytes} (hparses : entryParses p entry = true)
    (hseals : Seals p entry.record K (.entry p.serverId entry.id) value)
    (hfound : (entries.find? fun found => found.id == entry.id).isSome = true) :
    EntriesHold p K (implied.set entry.id value)
      (entries.set (entries.findIdx fun found => found.id == entry.id) entry) := by
  obtain ⟨old, hold, hid⟩ := found_at hfound
  constructor
  case each =>
    intro found hmem
    rcases Lists.mem_set_key h.nodup hold hmem with rfl | ⟨hmem, hne⟩
    · exact ⟨hparses, value, OrderedMap.get_set_self _ _ _, hseals⟩
    · refine ⟨(h.each found hmem).parses, ?_⟩
      rw [OrderedMap.get_set_of_ne _ _ (hid ▸ hne)]
      exact (h.each found hmem).secret
  case nodup =>
    rw [Lists.map_set_key hold hid.symm]
    exact h.nodup
  case all =>
    intro id found hget
    have hids : id ∈ (entries.set (entries.findIdx fun found => found.id == entry.id) entry).map
        EnvelopeEntry.id := by
      rw [Lists.map_set_key hold hid.symm]
      rw [OrderedMap.get_set] at hget
      split_ifs at hget with hsame
      · rw [hsame, ← hid]
        exact List.mem_map_of_mem (List.mem_of_getElem? hold)
      · obtain ⟨other, hother, hoid⟩ := h.all id found hget
        exact hoid ▸ List.mem_map_of_mem hother
    exact List.mem_map.mp hids
  case bound =>
    rw [List.length_set]
    exact h.bound

theorem EntriesHold.erase {entries : List (EnvelopeEntry τ)} (h : EntriesHold p K implied entries)
    {id : Str} (hfound : (entries.find? fun found => found.id == id).isSome = true) :
    EntriesHold p K (implied.delete id)
      (entries.eraseIdx (entries.findIdx fun found => found.id == id)) := by
  obtain ⟨old, hold, hid⟩ := found_at hfound
  constructor
  case each =>
    intro found hmem
    have hne := Lists.ne_of_mem_eraseIdx h.nodup hold hmem
    have hmem := List.mem_of_mem_eraseIdx hmem
    refine ⟨(h.each found hmem).parses, ?_⟩
    rw [OrderedMap.get_delete, if_neg (hid ▸ hne)]
    exact (h.each found hmem).secret
  case nodup => exact h.nodup.sublist ((List.eraseIdx_sublist _ _).map EnvelopeEntry.id)
  case all =>
    intro other value hget
    rw [OrderedMap.get_delete] at hget
    split_ifs at hget with hsame
    obtain ⟨entry, hmem, hentry⟩ := h.all other value hget
    refine ⟨entry, ?_, hentry⟩
    obtain ⟨k, hk⟩ := List.mem_iff_getElem?.mp hmem
    apply List.mem_eraseIdx_iff_getElem?.mpr
    refine ⟨k, fun hkey => hsame ?_, hk⟩
    rw [hkey, hold] at hk
    cases hk
    exact hentry.symm.trans hid
  case bound => exact Nat.le_trans (List.eraseIdx_sublist _ _).length_le h.bound

theorem EntriesHold.empty : EntriesHold p K .empty [] where
  each entry h := by cases h
  nodup := List.nodup_nil
  all id value h := by cases h
  bound := Nat.zero_le _

theorem Sealed.holds {keyEnvelope : KeyEnvelope τ} {entries : List (EnvelopeEntry τ)} {revision : ℕ}
    (h : Sealed p keyEnvelope K entries revision e) (hsize : persistable p e = .ok ())
    (hkey : K.length = 32) (hsalt : keyEnvelope.salt.length = 16)
    (hwrapped : Seals p keyEnvelope.record (p.scrypt passphrase keyEnvelope.salt)
      (.key p.serverId) K)
    (hentries : EntriesHold p K implied entries) : Holds p passphrase K implied e := by
  obtain ⟨hfields, hbound, hmanifest⟩ := h
  have hfits : p.byteLength e ≤ MAX_ENVELOPE_BYTES := Nat.le_of_not_lt (refuseIf_ok.mp hsize)
  have hall : entries.all (entryParses p) = true :=
    List.all_eq_true.mpr fun entry hmem => (hentries.each entry hmem).parses
  have hnonce := hmanifest.nonce
  have hempty := hmanifest.length
  generalize e.manifest = manifest at hfields hmanifest hnonce hempty
  subst hfields
  refine ⟨?_, hkey, hwrapped, hmanifest, hentries⟩
  simp only [parseEnvelope, Bool.and_eq_true, decide_eq_true_eq, beq_iff_eq]
  exact ⟨⟨⟨⟨⟨⟨⟨⟨⟨⟨hfits, trivial⟩, hentries.bound⟩, hbound⟩, hsalt⟩, hwrapped.nonce⟩,
    hwrapped.length.trans hkey⟩, hnonce⟩, hempty⟩, hentries.nodup⟩, hall⟩

theorem reencrypt_holds {K' : Bytes} {n : ℕ} (entries : List (EnvelopeEntry τ))
    (usedNonces : List Bytes) (h : ∀ entry ∈ entries, EntryHolds p K implied entry) :
    Fallible.Ends (reencrypt p K K' entries usedNonces) n
      (fun entries' _ => entries'.map EnvelopeEntry.id = entries.map EnvelopeEntry.id ∧
        ∀ entry ∈ entries', EntryHolds p K' implied entry) fun _ => True := by
  induction entries generalizing usedNonces n with
  | nil => exact ⟨rfl, fun entry hmem => by cases hmem⟩
  | cons entry rest ih =>
    obtain ⟨hparses, value, hget, hseals⟩ := h entry List.mem_cons_self
    simp only [reencrypt, Fallible.ends_bind, Fallible.ends_check]
    refine ⟨fun plaintext hplaintext => ?_, fun _ => trivial⟩
    rw [hseals.decrypt] at hplaintext
    cases hplaintext
    apply (encryptAesGcm_seals _ _ _ _).mono _ fun _ h => h
    intro record m hrecord
    simp only [Fallible.ends_pure]
    apply (ih _ fun entry hmem => h entry (List.mem_cons_of_mem _ hmem)).mono _ fun _ h => h
    intro entries' k hrest
    refine ⟨congrArg (entry.id :: ·) hrest.1, fun found hmem => ?_⟩
    rcases List.mem_cons.mp hmem with rfl | hmem
    · refine ⟨?_, value, hget, hrecord⟩
      have hlength := hseals.length
      simp only [entryParses, Bool.and_eq_true, beq_iff_eq, decide_eq_true_eq] at hparses ⊢
      exact ⟨⟨⟨⟨hparses.1.1.1.1, hparses.1.1.1.2⟩, hparses.1.1.2⟩, hrecord.nonce⟩,
        (hrecord.length.trans hlength.symm).trans_le hparses.2⟩
    · exact hrest.2 found hmem

theorem EntriesHold.reencrypted {K' : Bytes} {entries entries' : List (EnvelopeEntry τ)}
    (h : EntriesHold p K implied entries)
    (hids : entries'.map EnvelopeEntry.id = entries.map EnvelopeEntry.id)
    (heach : ∀ entry ∈ entries', EntryHolds p K' implied entry) :
    EntriesHold p K' implied entries' where
  each := heach
  nodup := hids ▸ h.nodup
  all id value hget := by
    obtain ⟨entry, hmem, hid⟩ := h.all id value hget
    have hmem' : entry.id ∈ entries'.map EnvelopeEntry.id := hids ▸ List.mem_map_of_mem hmem
    obtain ⟨found, hfound, hsame⟩ := List.mem_map.mp hmem'
    exact ⟨found, hfound, hsame.trans hid⟩
  bound := by
    have hlength := congrArg List.length hids
    rw [List.length_map, List.length_map] at hlength
    exact hlength ▸ h.bound

end Holding

end Terminay.Settings
