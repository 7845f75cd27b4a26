import Terminay.Lib.Lists
import Terminay.Lib.Runs
import Terminay.Remote.DeviceAuthentication

/-!
# What a run of the device authentication keeps

Every event of the log is legitimate with regard to what came before it.
-/

namespace Terminay.Remote
open Script Fallible

def scrub (s : Str) : Str := (scalars s).flatMap utf16

theorem scrub_paired (s : Str) : Paired (scrub s) := ⟨scalars s, rfl⟩

theorem scalars_scrub (s : Str) : scalars (scrub s) = scalars s := by
  have h := scalars_append (scalars s) []
  simpa [scrub, scalars] using h

theorem textEncode_scrub (s : Str) : textEncode (scrub s) = textEncode s := by
  rw [textEncode, textEncode, scalars_scrub]

theorem scrub_append {a : Str} (ha : Paired a) (s : Str) : scrub (a ++ s) = a ++ scrub s := by
  obtain ⟨cs, rfl⟩ := ha
  rw [scrub, scalars_append, List.flatMap_append, scrub]

theorem scrub_eq {s t : Str} (h : textEncode s = textEncode t) : scrub s = scrub t := by
  refine textEncode_injective (scrub_paired s) (scrub_paired t) ?_
  rw [textEncode_scrub, textEncode_scrub, h]

theorem field_eq {id id' rest rest' : Str} (hid : ∀ u ∈ id, u ≠ 0) (hid' : ∀ u ∈ id', u ≠ 0)
    (h : id ++ 0 :: rest = id' ++ 0 :: rest') : id = id' := by
  have hread : ∀ (a b : Str), (∀ u ∈ a, u ≠ 0) → (a ++ 0 :: b).takeWhile (· != 0) = a := by
    intro a b ha
    rw [List.takeWhile_append_of_pos fun u hu => by simpa using ha u hu]
    simp
  rw [← hread id rest hid, h, hread id' rest' hid']

def PlainId (id : Str) : Prop := ∀ u ∈ id, isSurrogate u = false ∧ u ≠ 0

instance (id : Str) : Decidable (PlainId id) := inferInstanceAs (Decidable (∀ u ∈ id, _))

theorem challengeBytes_id {c c' : DeviceChallenge} (hid : PlainId c.challengeId)
    (hid' : PlainId c'.challengeId) (h : challengeBytes c = challengeBytes c') :
    c.challengeId = c'.challengeId := by
  have hlead : ∀ d : DeviceChallenge, PlainId d.challengeId → ∃ rest,
      scrub (serializeRemoteDeviceChallenge d) =
        (DOMAIN ++ 0 :: (js "v1" ++ [0])) ++ (d.challengeId ++ 0 :: rest) := by
    intro d hd
    have hpaired : Paired ((DOMAIN ++ 0 :: (js "v1" ++ [0])) ++ (d.challengeId ++ [0])) := by
      refine Paired.of_plain fun u hu => ?_
      rcases List.mem_append.mp hu with hfixed | hrest
      · have hall : ∀ v ∈ DOMAIN ++ 0 :: (js "v1" ++ [0]), isSurrogate v = false := by
          simp [DOMAIN, js, utf16, isSurrogate, isHighSurrogate, isLowSurrogate]
        exact hall u hfixed
      · rcases List.mem_append.mp hrest with hown | hnul
        · exact (hd u hown).1
        · rw [List.mem_singleton.mp hnul]
          decide
    refine ⟨scrub (joinNul [d.serverId, d.sessionOrigin, d.deviceId, d.nonce,
      printTime d.issuedAt, printTime d.expiresAt]), ?_⟩
    have hsplit : serializeRemoteDeviceChallenge d =
        ((DOMAIN ++ 0 :: (js "v1" ++ [0])) ++ (d.challengeId ++ [0])) ++
          joinNul [d.serverId, d.sessionOrigin, d.deviceId, d.nonce,
            printTime d.issuedAt, printTime d.expiresAt] := by
      simp [serializeRemoteDeviceChallenge, joinNul]
    rw [hsplit, scrub_append hpaired]
    simp
  obtain ⟨rest, hrest⟩ := hlead c hid
  obtain ⟨rest', hrest'⟩ := hlead c' hid'
  have hsame := (hrest.symm.trans (scrub_eq h)).trans hrest'
  exact field_eq (fun u hu => (hid u hu).2) (fun u hu => (hid' u hu).2)
    (List.append_cancel_left hsame)

theorem radix36_plain (n : ℕ) : PlainId (radix36 n) := by
  have hunit : ∀ m, isSurrogate (radix36Unit m) = false ∧ radix36Unit m ≠ 0 := by
    intro m
    have hall : ∀ u ∈ js "0123456789abcdefghijklmnopqrstuvwxyz",
        isSurrogate u = false ∧ u ≠ 0 := by
      simp [js, utf16, isSurrogate, isHighSurrogate, isLowSurrogate]
    rw [radix36Unit, List.getD_eq_getElem?_getD]
    rcases hu : (js "0123456789abcdefghijklmnopqrstuvwxyz")[m]? with _ | u
    · decide
    · exact hall u (List.mem_of_getElem? hu)
  intro u hu
  unfold radix36 at hu
  split_ifs at hu
  · rw [List.mem_singleton.mp hu]
    decide
  · obtain ⟨m, -, rfl⟩ := List.mem_map.mp (List.mem_reverse.mp hu)
    exact hunit m

/-- What an event needs of the log before it. -/
def Legitimate (past : List AuthEvent) : AuthEvent → Prop
  | .registered deviceId _ => ∀ key, .registered deviceId key ∉ past
  | .signed _ _ => True
  | .challenged c =>
    .revoked c.deviceId ∉ past ∧ ∀ other, .challenged other ∈ past →
      other.challengeId ≠ c.challengeId ∧ challengeBytes other ≠ challengeBytes c
  | .issued t grant =>
    .revoked t.deviceId ∉ past ∧ (∀ other g, .issued other g ∈ past → other.ticket ≠ t.ticket) ∧
      ∀ g, grant = some g →
        .challenged g.challenge ∈ past ∧ g.challenge.deviceId = t.deviceId ∧
        g.challenge.sessionOrigin = g.origin ∧ .registered t.deviceId g.key ∈ past ∧
        .signed g.key (challengeBytes g.challenge) ∈ past ∧
        ∀ other g', .issued other (some g') ∈ past →
          g'.challenge.challengeId ≠ g.challenge.challengeId
  | .accepted t peerId now =>
    (∃ grant, .issued t grant ∈ past) ∧ .revoked t.deviceId ∉ past ∧ now < t.expiresAt ∧
      (∀ peer, t.peerId = some peer → peerId = some peer) ∧
      ∀ other peer time, .accepted other peer time ∈ past → other.ticket ≠ t.ticket
  | .revoked _ => True

def Orderly (log : List AuthEvent) : Prop :=
  ∀ past event later, log = past ++ event :: later → Legitimate past event

theorem Orderly.append {log : List AuthEvent} {event : AuthEvent} (h : Orderly log)
    (hevent : Legitimate log event) : Orderly (log ++ [event]) := by
  intro past e later hsplit
  rcases Lists.split_append_singleton hsplit with ⟨hpast, he⟩ | ⟨rest, hrest⟩
  · subst hpast
    exact he ▸ hevent
  · exact h past e rest hrest

theorem Orderly.of_mem {log : List AuthEvent} {event : AuthEvent} (h : Orderly log)
    (hmem : event ∈ log) : ∃ past, Legitimate past event ∧ ∀ e ∈ past, e ∈ log := by
  obtain ⟨past, later, rfl⟩ := List.append_of_mem hmem
  exact ⟨past, h past event later rfl, fun e he => List.mem_append_left _ he⟩

theorem Orderly.issued {log : List AuthEvent} (h : Orderly log) {t : ConnectionTicket}
    {peer : Option Str} {now : ℤ} (hmem : .accepted t peer now ∈ log) :
    ∃ grant, .issued t grant ∈ log := by
  obtain ⟨past, hlegit, hpast⟩ := h.of_mem hmem
  obtain ⟨grant, hissued⟩ := hlegit.1
  exact ⟨grant, hpast _ hissued⟩

theorem Orderly.key_unique {log : List AuthEvent} (h : Orderly log) {id key key' : Str}
    (hkey : .registered id key ∈ log) (hkey' : .registered id key' ∈ log) : key = key' := by
  obtain ⟨past, later, rfl⟩ := List.append_of_mem hkey
  rcases List.mem_append.mp hkey' with hpast | hrest
  · exact absurd hpast (h past _ later rfl key')
  rcases List.mem_cons.mp hrest with hsame | hlater
  · cases hsame
    rfl
  · obtain ⟨between, tail, rfl⟩ := List.append_of_mem hlater
    have hsplit : past ++ .registered id key :: (between ++ .registered id key' :: tail) =
        (past ++ .registered id key :: between) ++ .registered id key' :: tail := by simp
    exact absurd (List.mem_append_right past (List.mem_cons_self ..)) (h _ _ tail hsplit key)

theorem Orderly.granted {log : List AuthEvent} (h : Orderly log) {t : ConnectionTicket} {g : Grant}
    (hmem : .issued t (some g) ∈ log) : .challenged g.challenge ∈ log := by
  obtain ⟨past, hlegit, hpast⟩ := h.of_mem hmem
  exact hpast _ (hlegit.2.2 g rfl).1

section Invariant

def Drawn (p : Platform) (draws size : ℕ) (token : Str) : Prop :=
  ∃ k, k < draws ∧ (p.entropy k).length = size ∧ token = toToken (p.entropy k)

structure Held (p : Platform) (base : List AuthEvent) (s : AuthState) : Prop where
  orderly : Orderly s.log
  grown : base <+: s.log
  revoked : ∀ id, .revoked id ∈ s.log →
    ∃ device, s.devices.get id = some device ∧ device.revokedAt.isSome = true
  device : ∀ id device, s.devices.get id = some device →
    device.deviceId = id ∧ .registered id device.publicKeyPem ∈ s.log
  registered : ∀ id key, .registered id key ∈ s.log → (s.devices.get id).isSome = true
  challenge : ∀ id pending, s.challenges.get id = some pending →
    pending.challenge.challengeId = id ∧ .challenged pending.challenge ∈ s.log ∧
      pending.signingInput = serializeRemoteDeviceChallenge pending.challenge ∧
      ∀ t g, .issued t (some g) ∈ s.log → g.challenge.challengeId ≠ id
  ticket : ∀ token r, s.tickets.get token = some r →
    r.ticket.ticket = token ∧ (∃ grant, .issued r.ticket grant ∈ s.log) ∧
      ∀ t peer now, .accepted t peer now ∈ s.log → t.ticket ≠ token
  tokens : ∀ t grant, .issued t grant ∈ s.log → Drawn p s.draws 32 t.ticket
  ids : ∀ c, .challenged c ∈ s.log → ∃ n token, Drawn p s.draws 12 token ∧
    c.challengeId = js "challenge" ++ js "-" ++ radix36 n ++ js "-" ++ token

theorem held_initial (p : Platform) : Held p [] AuthState.initial where
  orderly past event later h := by simp [AuthState.initial] at h
  grown := List.prefix_rfl
  revoked id h := by cases h
  device id device h := by cases h
  registered id key h := by cases h
  challenge id pending h := by cases h
  ticket token r h := by cases h
  tokens t grant h := by cases h
  ids c h := by cases h

variable {p : Platform} {o : AuthenticationOptions} {s t : AuthState} {base : List AuthEvent}

theorem Held.rebase (h : Held p base s) : Held p s.log s := { h with grown := List.prefix_rfl }

theorem Drawn.later {draws draws' size : ℕ} {token : Str} (h : Drawn p draws size token)
    (hle : draws ≤ draws') : Drawn p draws' size token := by
  obtain ⟨k, hk, hrest⟩ := h
  exact ⟨k, hk.trans_le hle, hrest⟩

structure Advanced (s t : AuthState) : Prop where
  devices : t.devices = s.devices
  challenges : t.challenges = s.challenges
  tickets : t.tickets = s.tickets
  log : t.log = s.log
  draws : s.draws ≤ t.draws

theorem Advanced.refl (s : AuthState) : Advanced s s := ⟨rfl, rfl, rfl, rfl, le_refl _⟩

theorem Advanced.trans {u : AuthState} (h : Advanced s t) (h' : Advanced t u) : Advanced s u :=
  ⟨h'.devices.trans h.devices, h'.challenges.trans h.challenges, h'.tickets.trans h.tickets,
    h'.log.trans h.log, h.draws.trans h'.draws⟩

theorem Held.advanced (h : Held p base s) (ha : Advanced s t) : Held p base t where
  orderly := ha.log ▸ h.orderly
  grown := ha.log ▸ h.grown
  revoked id hid := by
    rw [ha.log] at hid
    rw [ha.devices]
    exact h.revoked id hid
  device id device hget := by
    rw [ha.devices] at hget
    rw [ha.log]
    exact h.device id device hget
  registered id key hmem := by
    rw [ha.log] at hmem
    rw [ha.devices]
    exact h.registered id key hmem
  challenge id pending hget := by
    rw [ha.challenges] at hget
    rw [ha.log]
    exact h.challenge id pending hget
  ticket token r hget := by
    rw [ha.tickets] at hget
    rw [ha.log]
    exact h.ticket token r hget
  tokens t grant hmem := by
    rw [ha.log] at hmem
    exact (h.tokens t grant hmem).later ha.draws
  ids c hmem := by
    rw [ha.log] at hmem
    obtain ⟨n, token, hdrawn, hid⟩ := h.ids c hmem
    exact ⟨n, token, hdrawn.later ha.draws, hid⟩

theorem Held.forget (h : Held p base s) {challenges : OrderedMap Str PendingChallenge}
    {tickets : OrderedMap Str TicketRecord}
    (hc : ∀ id pending, challenges.get id = some pending → s.challenges.get id = some pending)
    (ht : ∀ token r, tickets.get token = some r → s.tickets.get token = some r) :
    Held p base { s with challenges := challenges, tickets := tickets } where
  orderly := h.orderly
  grown := h.grown
  revoked := h.revoked
  device := h.device
  registered := h.registered
  challenge id pending hget := h.challenge id pending (hc id pending hget)
  ticket token r hget := h.ticket token r (ht token r hget)
  tokens := h.tokens
  ids := h.ids

theorem Held.updateDevice (h : Held p base s) {id : Str} {old device : RegisteredDevice}
    (hold : s.devices.get id = some old) (hid : device.deviceId = id)
    (hkey : device.publicKeyPem = old.publicKeyPem)
    (hrevoked : old.revokedAt.isSome = true → device.revokedAt.isSome = true) :
    Held p base { s with devices := s.devices.set id device } where
  orderly := h.orderly
  grown := h.grown
  revoked other hmem := by
    obtain ⟨found, hfound, hsome⟩ := h.revoked other hmem
    simp only [OrderedMap.get_set]
    split_ifs with heq
    · subst heq
      rw [hold] at hfound
      cases hfound
      exact ⟨device, rfl, hrevoked hsome⟩
    · exact ⟨found, hfound, hsome⟩
  device other found hget := by
    simp only [OrderedMap.get_set] at hget
    split_ifs at hget with heq
    · cases hget
      subst heq
      exact ⟨hid, hkey ▸ (h.device other old hold).2⟩
    · exact h.device other found hget
  registered other key hmem := by
    simp only [OrderedMap.get_set]
    split_ifs
    · rfl
    · exact h.registered other key hmem
  challenge := h.challenge
  ticket := h.ticket
  tokens := h.tokens
  ids := h.ids

/-- What an event that leaves the maps alone asks of them. -/
def Fits (p : Platform) (s : AuthState) : AuthEvent → Prop
  | .registered _ _ => False
  | .signed _ _ => True
  | .challenged c => ∃ n token, Drawn p s.draws 12 token ∧
      c.challengeId = js "challenge" ++ js "-" ++ radix36 n ++ js "-" ++ token
  | .issued t grant => Drawn p s.draws 32 t.ticket ∧
      ∀ g, grant = some g → s.challenges.get g.challenge.challengeId = none
  | .accepted t _ _ => s.tickets.get t.ticket = none
  | .revoked id => ∃ device, s.devices.get id = some device ∧ device.revokedAt.isSome = true

theorem Held.record (h : Held p base s) {event : AuthEvent} (hlegit : Legitimate s.log event)
    (hfits : Fits p s event) : Held p base (s.record event) := by
  have hmem : ∀ {e}, e ∈ (s.record event).log ↔ e ∈ s.log ∨ e = event := by
    intro e
    simp [AuthState.record]
  constructor
  case orderly => exact h.orderly.append hlegit
  case grown => exact h.grown.trans (List.prefix_append _ _)
  case revoked =>
    intro id hid
    rcases hmem.mp hid with hold | rfl
    · exact h.revoked id hold
    · exact hfits
  case device =>
    intro id device hget
    exact ⟨(h.device id device hget).1, hmem.mpr (.inl (h.device id device hget).2)⟩
  case registered =>
    intro id key hid
    rcases hmem.mp hid with hold | rfl
    · exact h.registered id key hold
    · exact hfits.elim
  case challenge =>
    intro id pending hget
    obtain ⟨hid, hlogged, hinput, hfresh⟩ := h.challenge id pending hget
    refine ⟨hid, hmem.mpr (.inl hlogged), hinput, fun t g hissued => ?_⟩
    rcases hmem.mp hissued with hold | rfl
    · exact hfresh t g hold
    · rintro rfl
      cases (hfits.2 g rfl).symm.trans hget
  case ticket =>
    intro token r hget
    obtain ⟨htoken, ⟨grant, hissued⟩, hfresh⟩ := h.ticket token r hget
    refine ⟨htoken, ⟨grant, hmem.mpr (.inl hissued)⟩, fun t peer now haccepted => ?_⟩
    rcases hmem.mp haccepted with hold | rfl
    · exact hfresh t peer now hold
    · rintro rfl
      have hgone : s.tickets.get t.ticket = none := hfits
      cases hgone.symm.trans hget
  case tokens =>
    intro t grant hissued
    rcases hmem.mp hissued with hold | rfl
    · exact h.tokens t grant hold
    · exact hfits.1
  case ids =>
    intro c hc
    rcases hmem.mp hc with hold | rfl
    · exact h.ids c hold
    · exact hfits

theorem Held.register (h : Held p base s) {device : RegisteredDevice}
    (habsent : s.devices.get device.deviceId = none) : Held p base (registerDevice device s) := by
  have hmem : ∀ {e}, e ∈ (registerDevice device s).log ↔
      e ∈ s.log ∨ e = .registered device.deviceId device.publicKeyPem := by
    intro e
    simp [registerDevice, setDevice, AuthState.record]
  constructor
  case orderly =>
    refine h.orderly.append fun key hkey => ?_
    have hsome := h.registered _ key hkey
    rw [habsent] at hsome
    cases hsome
  case grown => exact h.grown.trans (List.prefix_append _ _)
  case revoked =>
    intro id hid
    have hold : .revoked id ∈ s.log := (hmem.mp hid).resolve_right fun heq => by cases heq
    obtain ⟨found, hfound, hsome⟩ := h.revoked id hold
    have hne : id ≠ device.deviceId := by
      rintro rfl
      rw [habsent] at hfound
      cases hfound
    exact ⟨found, (OrderedMap.get_set_of_ne _ _ hne).trans hfound, hsome⟩
  case device =>
    intro id found hget
    simp only [registerDevice, setDevice, AuthState.record, OrderedMap.get_set] at hget
    split_ifs at hget with heq
    · cases hget
      exact ⟨heq.symm, hmem.mpr (.inr (by rw [heq]))⟩
    · exact ⟨(h.device id found hget).1, hmem.mpr (.inl (h.device id found hget).2)⟩
  case registered =>
    intro id key hid
    simp only [registerDevice, setDevice, AuthState.record, OrderedMap.get_set]
    split_ifs with heq
    · rfl
    · refine h.registered id key ((hmem.mp hid).resolve_right fun hnew => ?_)
      cases hnew
      exact heq rfl
  case challenge =>
    intro id pending hget
    obtain ⟨hid, hlogged, hinput, hfresh⟩ := h.challenge id pending hget
    exact ⟨hid, hmem.mpr (.inl hlogged), hinput, fun t g hissued =>
      hfresh t g ((hmem.mp hissued).resolve_right fun heq => by cases heq)⟩
  case ticket =>
    intro token r hget
    obtain ⟨htoken, ⟨grant, hissued⟩, hfresh⟩ := h.ticket token r hget
    exact ⟨htoken, ⟨grant, hmem.mpr (.inl hissued)⟩, fun t peer now haccepted =>
      hfresh t peer now ((hmem.mp haccepted).resolve_right fun heq => by cases heq)⟩
  case tokens =>
    intro t grant hissued
    exact h.tokens t grant ((hmem.mp hissued).resolve_right fun heq => by cases heq)
  case ids =>
    intro c hc
    exact h.ids c ((hmem.mp hc).resolve_right fun heq => by cases heq)

theorem Held.addChallenge (h : Held p base s) {c : DeviceChallenge} (hlogged : .challenged c ∈ s.log)
    (hfresh : ∀ t g, .issued t (some g) ∈ s.log → g.challenge.challengeId ≠ c.challengeId) :
    Held p base { s with
      challenges := s.challenges.set c.challengeId ⟨c, serializeRemoteDeviceChallenge c⟩ } where
  orderly := h.orderly
  grown := h.grown
  revoked := h.revoked
  device := h.device
  registered := h.registered
  challenge id pending hget := by
    simp only [OrderedMap.get_set] at hget
    split_ifs at hget with heq
    · cases hget
      exact ⟨heq.symm, hlogged, rfl, heq ▸ hfresh⟩
    · exact h.challenge id pending hget
  ticket := h.ticket
  tokens := h.tokens
  ids := h.ids

theorem Held.addTicket (h : Held p base s) {t : ConnectionTicket} {grant : Option Grant}
    (hlogged : .issued t grant ∈ s.log)
    (hfresh : ∀ other peer now, .accepted other peer now ∈ s.log → other.ticket ≠ t.ticket) :
    Held p base { s with tickets := s.tickets.set t.ticket ⟨t, false⟩ } where
  orderly := h.orderly
  grown := h.grown
  revoked := h.revoked
  device := h.device
  registered := h.registered
  challenge := h.challenge
  ticket token r hget := by
    simp only [OrderedMap.get_set] at hget
    split_ifs at hget with heq
    · cases hget
      exact ⟨heq.symm, ⟨grant, hlogged⟩, heq ▸ hfresh⟩
    · exact h.ticket token r hget
  tokens := h.tokens
  ids := h.ids

end Invariant

section Helpers
variable {E : AuthState → Prop}

theorem currentReading_ends (s : AuthState) :
    Ends (currentReading p) s (fun _ => Advanced s) (Advanced s) := by
  have hmoved : Advanced s { s with readings := s.readings + 1 } := ⟨rfl, rfl, rfl, rfl, le_refl _⟩
  simp only [currentReading, ends_bind, ends_get, ends_modify]
  split
  · exact hmoved
  · exact ends_ite.mpr ⟨fun _ => hmoved, fun _ => hmoved⟩

def DrawnSince (p : Platform) (s t : AuthState) (size : ℕ) (token : Str) : Prop :=
  ∃ k, s.draws ≤ k ∧ k < t.draws ∧ (p.entropy k).length = size ∧ token = toToken (p.entropy k)

theorem drawToken_ends (size : ℕ) (s : AuthState) :
    Ends (drawToken p size) s (fun token t => Advanced s t ∧ DrawnSince p s t size token)
      (Advanced s) := by
  have hmoved : Advanced s { s with draws := s.draws + 1 } :=
    ⟨rfl, rfl, rfl, rfl, Nat.le_succ _⟩
  simp only [drawToken, ends_bind, ends_get, ends_modify]
  refine ends_ite.mpr ⟨fun hsize => ?_, fun _ => hmoved⟩
  exact ⟨hmoved, s.draws, le_refl _, Nat.lt_succ_self _, hsize, rfl⟩

theorem nextId_ends (kind : Str) (s : AuthState) :
    Ends (nextId p kind) s (fun id t => Advanced s t ∧ ∃ n token, DrawnSince p s t 12 token ∧
      id = kind ++ js "-" ++ radix36 n ++ js "-" ++ token) (Advanced s) := by
  simp only [nextId, ends_bind, ends_get, ends_modify]
  have hbegun : Advanced s { s with sequence := s.sequence + 1 } := ⟨rfl, rfl, rfl, rfl, le_refl _⟩
  refine (drawToken_ends 12 _).mono (fun token t ht => ?_) fun t ht => hbegun.trans ht
  exact ⟨hbegun.trans ht.1, s.sequence + 1, token, ht.2, rfl⟩

theorem requireActiveDevice_ends (deviceId : Str) (s : AuthState) :
    Ends (requireActiveDevice deviceId) s
      (fun device t => t = s ∧ s.devices.get deviceId = some device ∧ device.revokedAt = none)
      (fun t => t = s) := by
  simp only [requireActiveDevice, ends_bind, ends_get]
  refine ends_ite.mpr ⟨fun _ => rfl, fun _ => ?_⟩
  rcases hget : s.devices.get deviceId with _ | device
  · exact rfl
  · refine ends_ite.mpr ⟨fun _ => rfl, fun hrevoked => ⟨rfl, rfl, ?_⟩⟩
    simpa using hrevoked

structure Swept (p : Platform) (base : List AuthEvent) (s : AuthState) (now : ℤ) (t : AuthState) : Prop where
  held : Held p base t
  log : t.log = s.log
  devices : t.devices = s.devices
  challenges : ∀ id pending, t.challenges.get id = some pending →
    s.challenges.get id = some pending
  live : ∀ token r, t.tickets.get token = some r → now < r.ticket.expiresAt

theorem cleanup_ends (h : Held p base s) :
    Ends (cleanup p) s (fun swept => Swept p base s swept.1) (Held p base) := by
  simp only [cleanup, ends_bind, ends_get, ends_modify, ends_pure]
  refine (currentReading_ends s).mono (fun now t ht => ?_) fun t ht => h.advanced ht
  constructor
  case held =>
    refine (h.advanced ht).forget ?_ ?_
    · exact fun id pending hget => (OrderedMap.get_filter.mp hget).1
    · exact fun token r hget => (OrderedMap.get_filter.mp hget).1
  case log => exact ht.log
  case devices => exact ht.devices
  case challenges =>
    intro id pending hget
    exact ht.challenges ▸ (OrderedMap.get_filter.mp hget).1
  case live =>
    intro token r hget
    have hkept := (OrderedMap.get_filter.mp hget).2
    simp only [isLive, Bool.and_eq_true, decide_eq_true_eq] at hkept
    exact hkept.2

end Helpers

theorem drawn_ne (hentropy : Function.Injective p.entropy) {draws size : ℕ} {token token' : Str}
    (h : Drawn p draws size token) (h' : DrawnSince p s t size token') (hle : draws ≤ s.draws) :
    token ≠ token' := by
  obtain ⟨k, hk, hsize, rfl⟩ := h
  obtain ⟨k', hk', -, hsize', rfl⟩ := h'
  intro heq
  have hbytes := toToken_injective _ _ (hsize.trans hsize'.symm) heq
  have := hentropy hbytes
  omega

theorem DrawnSince.drawn {size : ℕ} {token : Str} (h : DrawnSince p s t size token) :
    Drawn p t.draws size token := by
  obtain ⟨k, -, hk⟩ := h
  exact ⟨k, hk⟩

theorem id_ne (hentropy : Function.Injective p.entropy) {draws n n' : ℕ} {token token' : Str}
    (kind : Str) (h : Drawn p draws 12 token) (h' : DrawnSince p s t 12 token')
    (hle : draws ≤ s.draws) :
    kind ++ js "-" ++ radix36 n ++ js "-" ++ token ≠
      kind ++ js "-" ++ radix36 n' ++ js "-" ++ token' := by
  intro heq
  refine drawn_ne hentropy h h' hle ?_
  obtain ⟨k, -, hsize, rfl⟩ := h
  obtain ⟨k', -, -, hsize', rfl⟩ := h'
  exact (List.append_inj' heq (length_toToken _ _ (hsize.trans hsize'.symm))).2

theorem challenge_plain : PlainId (js "challenge") := by
  simp [PlainId, js, utf16, isSurrogate, isHighSurrogate, isLowSurrogate]

theorem id_plain {size draws n : ℕ} {token kind : Str} (hkind : PlainId kind)
    (h : Drawn p draws size token) :
    PlainId (kind ++ js "-" ++ radix36 n ++ js "-" ++ token) := by
  obtain ⟨k, -, -, rfl⟩ := h
  have hdash : PlainId (js "-") := by
    simp [PlainId, js, utf16, isSurrogate, isHighSurrogate, isLowSurrogate]
  intro u hu
  simp only [List.mem_append] at hu
  rcases hu with (((hu | hu) | hu) | hu) | hu
  · exact hkind u hu
  · exact hdash u hu
  · exact radix36_plain n u hu
  · exact hdash u hu
  · exact ⟨toToken_plain _ u hu, toToken_ne_nul _ u hu⟩

theorem Held.not_revoked (h : Held p base s) {id : Str} {device : RegisteredDevice}
    (hget : s.devices.get id = some device) (hactive : device.revokedAt = none) :
    .revoked id ∉ s.log := by
  intro hmem
  obtain ⟨found, hfound, hsome⟩ := h.revoked id hmem
  rw [hget] at hfound
  cases hfound
  rw [hactive] at hsome
  cases hsome

section Operations
variable (hentropy : Function.Injective p.entropy) (h : Held p base s)
include h

theorem enroll_held (i : EnrollInput) : Ends (enroll p i) s (fun _ => Held p base) (Held p base) := by
  unfold enroll
  refine ends_ite.mpr ⟨fun _ => h, fun _ => ends_ite.mpr ⟨fun _ => h, fun _ => ?_⟩⟩
  refine ends_bind.mpr (ends_check.mpr ⟨fun _ _ => ?_, fun _ => h⟩)
  refine (currentReading_ends s).bind (fun t ht => h.advanced ht) fun now t ht => ?_
  have hheld := h.advanced ht
  have hid : Ends (enrolledId p i.deviceId) t (fun _ => Advanced t) (Advanced t) := by
    rcases i.deviceId with _ | id
    · exact (nextId_ends _ t).mono (fun _ _ hu => hu.1) fun _ hu => hu
    · exact Advanced.refl t
  refine hid.bind (fun u hu => hheld.advanced hu) fun deviceId u hu => ?_
  have hheld := hheld.advanced hu
  simp only [ends_bind, ends_get]
  rcases hget : u.devices.get deviceId with _ | existing
  · exact hheld.register hget
  · refine ends_ite.mpr ⟨fun _ => hheld, fun _ => ends_ite.mpr ⟨fun _ => hheld, fun _ => ?_⟩⟩
    exact hheld.updateDevice hget (hheld.device deviceId existing hget).1 rfl id

theorem restore_held (devices : List RegisteredDevice) :
    Ends (restore p devices) s (fun _ => Held p base) (Held p base) := by
  induction devices generalizing s with
  | nil => exact h
  | cons device devices ih =>
    refine ends_ite.mpr ⟨fun _ => h, fun _ => ?_⟩
    refine ends_bind.mpr (ends_check.mpr ⟨fun _ _ => ?_, fun _ => h⟩)
    simp only [ends_bind, ends_get]
    refine ends_ite.mpr ⟨fun _ => h, fun habsent => ?_⟩
    exact ih (h.register (by simpa using habsent))

theorem revokeDevice_held (deviceId : Str) :
    Ends (revokeDevice p deviceId) s (fun _ => Held p base) (Held p base) := by
  simp only [revokeDevice, ends_bind, ends_get]
  rcases hget : s.devices.get deviceId with _ | device
  · exact h
  · refine ends_ite.mpr ⟨fun hrevoked => ?_, fun _ => ?_⟩
    · exact h.record trivial ⟨device, hget, hrevoked⟩
    · refine (currentReading_ends s).bind (fun t ht => h.advanced ht) fun now t ht => ?_
      have hheld := h.advanced ht
      have hdevice : t.devices.get deviceId = some device := ht.devices ▸ hget
      let devices := t.devices.set deviceId { device with revokedAt := some now }
      have hset : Held p base { t with devices := devices } :=
        hheld.updateDevice hdevice (hheld.device deviceId device hdevice).1 rfl fun _ => rfl
      have hdropped : Held p base (dropDevice deviceId { t with devices := devices }) :=
        hset.forget (fun _ _ hc => (OrderedMap.get_filter.mp hc).1)
          fun _ _ hr => (OrderedMap.get_filter.mp hr).1
      exact hdropped.record trivial ⟨_, OrderedMap.get_set_self _ _ _, rfl⟩

end Operations

section Granting
variable (hentropy : Function.Injective p.entropy) (h : Held p base s)
include hentropy h

theorem createChallenge_held (deviceId : Str) (sessionOrigin : Option Str) :
    Ends (createChallenge p o deviceId sessionOrigin) s (fun _ => Held p base) (Held p base) := by
  unfold createChallenge
  refine (cleanup_ends h).bind (fun _ ht => ht) fun swept t hswept => ?_
  have ht := hswept.held
  refine (requireActiveDevice_ends deviceId t).bind (fun _ hu => hu ▸ ht) ?_
  rintro device u ⟨rfl, hdevice, hactive⟩
  simp only [ends_bind, ends_get]
  refine ends_ite.mpr ⟨fun _ => ht, fun _ => ?_⟩
  refine (currentReading_ends u).bind (fun v hv => ht.advanced hv) fun issuedAt v hv => ?_
  refine (nextId_ends _ v).bind (fun w hw => (ht.advanced hv).advanced hw) ?_
  rintro challengeId w ⟨hw, n, token, hdrawn, rfl⟩
  have hbefore := ht.advanced hv
  refine (drawToken_ends 32 w).bind (fun x hx => (hbefore.advanced hw).advanced hx) ?_
  rintro nonce x ⟨hx, -⟩
  have hheld := (hbefore.advanced hw).advanced hx
  have hsame := (hv.trans hw).trans hx
  let c : DeviceChallenge := ⟨js "challenge" ++ js "-" ++ radix36 n ++ js "-" ++ token, o.serverId,
    sessionOrigin.getD o.sessionOrigin, device.deviceId, nonce, issuedAt,
    issuedAt + o.challengeTtlMs⟩
  have hnew : ∀ other, .challenged other ∈ v.log → other.challengeId ≠ c.challengeId := by
    intro other hother
    obtain ⟨m, old, hold, hid⟩ := hbefore.ids other hother
    rw [hid]
    exact id_ne hentropy (js "challenge") hold hdrawn (le_refl _)
  have hlegit : Legitimate x.log (.challenged c) := by
    have hname : c.deviceId = deviceId := (ht.device deviceId device hdevice).1
    refine ⟨?_, fun other hother => ?_⟩
    · rw [hsame.log, hname]
      exact ht.not_revoked hdevice hactive
    · rw [hx.log, hw.log] at hother
      have hne := hnew other hother
      refine ⟨hne, fun hbytes => hne (challengeBytes_id ?_ ?_ hbytes)⟩
      · obtain ⟨m, old, hold, hid⟩ := hbefore.ids other hother
        exact hid ▸ id_plain challenge_plain hold
      · exact id_plain challenge_plain hdrawn.drawn
  have hrecorded : Held p base (x.record (.challenged c)) :=
    hheld.record hlegit ⟨n, token, hdrawn.drawn.later hx.draws, rfl⟩
  have hlogged : .challenged c ∈ (x.record (.challenged c)).log :=
    List.mem_append_right _ (List.mem_singleton.mpr rfl)
  refine hrecorded.addChallenge hlogged fun other g hissued => ?_
  have hold : .issued other (some g) ∈ v.log := by
    rw [← hw.log, ← hx.log]
    simpa [AuthState.record] using hissued
  exact hnew g.challenge (hbefore.orderly.granted hold)

structure Redeemable (s : AuthState) (deviceId : Str) (g : Grant) : Prop where
  challenged : .challenged g.challenge ∈ s.log
  device : g.challenge.deviceId = deviceId
  origin : g.challenge.sessionOrigin = g.origin
  registered : .registered deviceId g.key ∈ s.log
  signed : .signed g.key (challengeBytes g.challenge) ∈ s.log
  fresh : ∀ other g', .issued other (some g') ∈ s.log →
    g'.challenge.challengeId ≠ g.challenge.challengeId
  spent : s.challenges.get g.challenge.challengeId = none

theorem issueConnectionTicket_held (deviceId : Str) (peerId : Option Str) {grant : Option Grant}
    (hgrant : ∀ g, grant = some g → Redeemable s deviceId g) :
    Ends (issueConnectionTicket p o deviceId peerId grant) s (fun _ => Held p base) (Held p base) := by
  unfold issueConnectionTicket
  refine (cleanup_ends h).bind (fun _ ht => ht) fun swept t hswept => ?_
  have ht := hswept.held
  refine (requireActiveDevice_ends deviceId t).bind (fun _ hu => hu ▸ ht) ?_
  rintro device u ⟨rfl, hdevice, hactive⟩
  refine ends_ite.mpr ⟨fun _ => ht, fun _ => ?_⟩
  refine (currentReading_ends u).bind (fun v hv => ht.advanced hv) fun now v hv => ?_
  have hbefore := ht.advanced hv
  refine (drawToken_ends 32 v).bind (fun w hw => hbefore.advanced hw) ?_
  rintro token w ⟨hw, hdrawn⟩
  refine (nextId_ends _ w).bind (fun x hx => (hbefore.advanced hw).advanced hx) ?_
  rintro ticketId x ⟨hx, -⟩
  have hheld := (hbefore.advanced hw).advanced hx
  have hsame := (hv.trans hw).trans hx
  let ticket : ConnectionTicket := ⟨token, ticketId, o.serverId, o.sessionOrigin, device.deviceId,
    now + o.ticketTtlMs, peerId⟩
  have hname : ticket.deviceId = deviceId := (ht.device deviceId device hdevice).1
  have hnew : ∀ other g, .issued other g ∈ x.log → other.ticket ≠ token := by
    intro other g hother
    rw [hx.log, hw.log] at hother
    exact drawn_ne hentropy (hbefore.tokens other g hother) hdrawn (le_refl _)
  have hlogs : x.log = s.log := hsame.log.trans hswept.log
  have hlegit : Legitimate x.log (.issued ticket grant) := by
    refine ⟨?_, hnew, fun g hg => ?_⟩
    · rw [hsame.log, hname]
      exact ht.not_revoked hdevice hactive
    · have hredeem := hgrant g hg
      rw [hlogs, hname]
      exact ⟨hredeem.challenged, hredeem.device, hredeem.origin, hredeem.registered, hredeem.signed,
        hredeem.fresh⟩
  have hspent : ∀ g, grant = some g → x.challenges.get g.challenge.challengeId = none := by
    intro g hg
    rw [hsame.challenges]
    rcases hleft : u.challenges.get g.challenge.challengeId with _ | pending
    · rfl
    · cases (hswept.challenges _ pending hleft).symm.trans (hgrant g hg).spent
  have hrecorded : Held p base (x.record (.issued ticket grant)) :=
    hheld.record hlegit ⟨hdrawn.drawn.later hx.draws, hspent⟩
  have hlogged : .issued ticket grant ∈ (x.record (.issued ticket grant)).log :=
    List.mem_append_right _ (List.mem_singleton.mpr rfl)
  have hadded := hrecorded.addTicket hlogged fun other peer time haccepted => by
    have hold : .accepted other peer time ∈ x.log := by simpa [AuthState.record] using haccepted
    obtain ⟨g, hissued⟩ := hheld.orderly.issued hold
    exact hnew other g hissued
  simp only [ends_bind, ends_modify]
  refine (currentReading_ends _).mono (fun seen y hy => ?_) fun y hy => hadded.advanced hy
  have hkept : y.devices.get device.deviceId = some device := by
    rw [hy.devices, (ht.device deviceId device hdevice).1, ← hdevice, ← hsame.devices]
    rfl
  exact (hadded.advanced hy).updateDevice hkept rfl rfl id

/-- A signature that verifies was made by the holder of the key. -/
def unforged (p : Platform) (s : AuthState) : AuthOperation → Bool
  | .verify i =>
    match s.challenges.get i.challengeId, s.devices.get i.deviceId with
    | some pending, some device =>
      let message := textEncode pending.signingInput
      !p.verifies device.publicKeyPem message i.deviceSignature ||
        s.log.contains (.signed device.publicKeyPem message)
    | _, _ => true
  | _ => true

omit hentropy h in
theorem unforged_signed {i : VerifyInput} {pending : PendingChallenge} {device : RegisteredDevice}
    (h : unforged p s (.verify i) = true) (hpending : s.challenges.get i.challengeId = some pending)
    (hdevice : s.devices.get i.deviceId = some device)
    (hvalid : p.verifies device.publicKeyPem (textEncode pending.signingInput)
      i.deviceSignature = true) :
    .signed device.publicKeyPem (textEncode pending.signingInput) ∈ s.log := by
  simpa [unforged, hpending, hdevice, hvalid] using h

theorem verifyChallenge_held (i : VerifyInput) (hunforged : unforged p s (.verify i) = true) :
    Ends (verifyChallenge p o i) s (fun _ => Held p base) (Held p base) := by
  unfold verifyChallenge
  refine (cleanup_ends h).bind (fun _ ht => ht) fun swept t hswept => ?_
  have ht := hswept.held
  simp only [ends_bind, ends_get]
  rcases hpending : t.challenges.get i.challengeId with _ | pending
  · exact ht
  refine ends_ite.mpr ⟨fun _ => ht, fun hmatch => ?_⟩
  simp only [not_or, not_not, ne_eq] at hmatch
  refine (requireActiveDevice_ends i.deviceId t).bind (fun _ hu => hu ▸ ht) ?_
  rintro device u ⟨rfl, hdevice, hactive⟩
  refine ends_ite.mpr ⟨fun _ => ht, fun _ => ends_ite.mpr ⟨fun _ => ht, fun hvalid => ?_⟩⟩
  obtain ⟨hid, hlogged, hinput, hfresh⟩ := ht.challenge i.challengeId pending hpending
  have hname := (ht.device i.deviceId device hdevice).1
  have hsigned := unforged_signed hunforged (hswept.challenges _ _ hpending)
    (hswept.devices ▸ hdevice) (by simpa using hvalid)
  rw [hinput, ← hswept.log] at hsigned
  have hdeleted : Held p base { u with challenges := u.challenges.delete i.challengeId } :=
    ht.forget (fun other found hget => by
      rw [OrderedMap.get_delete] at hget
      split_ifs at hget
      exact hget) fun _ _ hget => hget
  refine ends_bind.mpr (issueConnectionTicket_held hentropy hdeleted device.deviceId i.peerId
    fun g hg => ?_)
  cases hg
  constructor
  case challenged => exact hlogged
  case device => exact hmatch.1.trans hname.symm
  case origin => exact hmatch.2.2
  case registered => exact hname ▸ (ht.device i.deviceId device hdevice).2
  case signed => exact hsigned
  case fresh =>
    intro other g' hissued
    rw [hid]
    exact hfresh other g' hissued
  case spent =>
    rw [OrderedMap.get_delete, if_pos hid]

omit hentropy in
theorem consumeTicket_held (token : Str) (peerId : Option Str) :
    Ends (consumeTicket p token peerId) s (fun _ => Held p base) (Held p base) := by
  unfold consumeTicket
  refine (cleanup_ends h).bind (fun _ ht => ht) fun swept t hswept => ?_
  have ht := hswept.held
  simp only [ends_bind, ends_get]
  rcases hrecord : t.tickets.get token with _ | r
  · exact ht
  refine ends_ite.mpr ⟨fun _ => ht, fun _ => ?_⟩
  obtain ⟨htoken, ⟨grant, hissued⟩, hfresh⟩ := ht.ticket token r hrecord
  let u : AuthState := { t with tickets := t.tickets.delete token }
  have hu : Held p base u := ht.forget (fun _ _ hget => hget) fun other found hget => by
    rw [OrderedMap.get_delete] at hget
    split_ifs at hget
    exact hget
  simp only [ends_bind, ends_modify]
  refine ends_ite.mpr ⟨fun _ => hu, fun hpeer => ?_⟩
  refine (requireActiveDevice_ends r.ticket.deviceId u).bind (fun _ hv => hv ▸ hu) ?_
  rintro device v ⟨rfl, hdevice, hactive⟩
  refine (currentReading_ends u).bind (fun w hw => hu.advanced hw) fun seen w hw => ?_
  have hname := (hu.device _ device hdevice).1
  have hkept : w.devices.get device.deviceId = some device := by
    rw [hw.devices, hname]
    exact hdevice
  let y : AuthState := setDevice { device with lastSeenAt := seen } w
  have hy : Held p base y := (hu.advanced hw).updateDevice hkept rfl rfl id
  have hlegit : Legitimate y.log (.accepted r.ticket peerId swept.1) := by
    have hlog : y.log = t.log := hw.log
    rw [hlog]
    refine ⟨⟨grant, hissued⟩, hu.not_revoked hdevice hactive, hswept.live token r hrecord, ?_, ?_⟩
    · intro peer hbound
      rw [hbound] at hpeer
      simpa [eq_comm] using hpeer
    · intro other peer time haccepted
      rw [htoken]
      exact hfresh other peer time haccepted
  have hgone : y.tickets.get r.ticket.ticket = none := by
    have htickets : y.tickets = t.tickets.delete token := hw.tickets
    rw [htickets, OrderedMap.get_delete, if_pos htoken]
  exact hy.record hlegit hgone

end Granting

theorem Held.step (hentropy : Function.Injective p.entropy) (h : Held p base s)
    (operation : AuthOperation) (hunforged : unforged p s operation = true) :
    Held p base (authStep p o s operation) := by
  cases operation with
  | enroll i => exact (enroll_held h i).state
  | restore devices => exact (restore_held h devices).state
  | revokeDevice deviceId => exact (revokeDevice_held h deviceId).state
  | createChallenge deviceId origin => exact (createChallenge_held hentropy h deviceId origin).state
  | verify i => exact (verifyChallenge_held hentropy h i hunforged).state
  | issueConnectionTicket deviceId peerId =>
    exact (issueConnectionTicket_held hentropy h deviceId peerId (fun g hg => by cases hg)).state
  | consumeTicket token peerId => exact (consumeTicket_held h token peerId).state
  | cleanup => exact ((cleanup_ends h).mono (fun _ _ ht => ht.held) fun _ ht => ht).state
  | sign key message => exact h.record trivial trivial

abbrev afterAuthentication (p : Platform) (o : AuthenticationOptions)
    (operations : List AuthOperation) : AuthState :=
  Runs.after (authStep p o) AuthState.initial operations

/-- The proof behind a ticket: a challenge of its device for the origin the peer reached,
signed with the device's key. -/
structure Proven (past : List AuthEvent) (t : ConnectionTicket) (g : Grant) : Prop where
  challenged : .challenged g.challenge ∈ past
  device : g.challenge.deviceId = t.deviceId
  origin : g.challenge.sessionOrigin = g.origin
  registered : .registered t.deviceId g.key ∈ past
  signed : .signed g.key (challengeBytes g.challenge) ∈ past

structure Authentic (p : Platform) (o : AuthenticationOptions) (operations : List AuthOperation) :
    Prop where
  accepted : ∀ past t peerId now later,
    (afterAuthentication p o operations).log = past ++ .accepted t peerId now :: later →
    (∃ grant, .issued t grant ∈ past ∧ ∀ g, grant = some g → Proven past t g) ∧
      now < t.expiresAt ∧ (∀ peer, t.peerId = some peer → peerId = some peer) ∧
      (∀ other peer time, .accepted other peer time ∈ past → other.ticket ≠ t.ticket) ∧
      .revoked t.deviceId ∉ past
  issued : ∀ past t grant later,
    (afterAuthentication p o operations).log = past ++ .issued t grant :: later →
    .revoked t.deviceId ∉ past ∧ ∀ g, grant = some g → ∀ other g', .issued other (some g') ∈ past →
      g'.challenge.challengeId ≠ g.challenge.challengeId
  challenged : ∀ past c later,
    (afterAuthentication p o operations).log = past ++ .challenged c :: later →
    .revoked c.deviceId ∉ past ∧ ∀ other, .challenged other ∈ past →
      challengeBytes other ≠ challengeBytes c
  keys : ∀ past later id device, operations = past ++ later →
    (afterAuthentication p o past).devices.get id = some device →
    ∃ kept, (afterAuthentication p o operations).devices.get id = some kept ∧
      kept.publicKeyPem = device.publicKeyPem

theorem authentication_runs (hentropy : Function.Injective p.entropy)
    {operations : List AuthOperation}
    (h : Runs.Meets (authStep p o) (fun s operation => unforged p s operation = true)
      AuthState.initial operations) : Authentic p o operations := by
  have hrun : ∀ past later, operations = past ++ later →
      ∃ s, s = afterAuthentication p o past ∧ Held p [] s ∧
        Held p s.log (afterAuthentication p o operations) := by
    intro past later hsplit
    subst hsplit
    obtain ⟨hpast, hlater⟩ := Runs.meets_append.mp h
    have hheld : Held p [] (afterAuthentication p o past) :=
      Runs.invariant_of_meets (fun s operation hs hu => hs.step hentropy operation hu)
        (held_initial p) hpast
    refine ⟨_, rfl, hheld, ?_⟩
    have hrest : afterAuthentication p o (past ++ later) =
        Runs.after (authStep p o) (afterAuthentication p o past) later := Runs.after_append _ _ _ _
    rw [hrest]
    exact Runs.invariant_of_meets (fun s operation hs hu => hs.step hentropy operation hu)
      hheld.rebase hlater
  obtain ⟨_, -, -, hheld⟩ := hrun [] operations rfl
  have horder := hheld.orderly
  constructor
  case accepted =>
    intro past t peerId now later hsplit
    obtain ⟨⟨grant, hissued⟩, hrevoked, hearly, hpeer, honce⟩ := horder past _ later hsplit
    refine ⟨⟨grant, hissued, fun g hg => ?_⟩, hearly, hpeer, honce, hrevoked⟩
    obtain ⟨before, between, rfl⟩ := List.append_of_mem hissued
    have hlegit := horder before (.issued t grant)
      (between ++ .accepted t peerId now :: later) (by simpa using hsplit)
    obtain ⟨hchallenged, hdevice, horigin, hregistered, hsigned, -⟩ := hlegit.2.2 g hg
    exact ⟨List.mem_append_left _ hchallenged, hdevice, horigin,
      List.mem_append_left _ hregistered, List.mem_append_left _ hsigned⟩
  case issued =>
    intro past t grant later hsplit
    have hlegit := horder past _ later hsplit
    exact ⟨hlegit.1, fun g hg => (hlegit.2.2 g hg).2.2.2.2.2⟩
  case challenged =>
    intro past c later hsplit
    have hlegit := horder past _ later hsplit
    exact ⟨hlegit.1, fun other hother => (hlegit.2 other hother).2⟩
  case keys =>
    intro past later id device hsplit hdevice
    obtain ⟨s, rfl, hs, hafter⟩ := hrun past later hsplit
    have hregistered := hafter.grown.subset (hs.device id device hdevice).2
    obtain ⟨kept, hkept⟩ := Option.isSome_iff_exists.mp (hafter.registered id _ hregistered)
    exact ⟨kept, hkept, hafter.orderly.key_unique (hafter.device id kept hkept).2 hregistered⟩

def sampleEntropy (k : ℕ) : Bytes :=
  if k = 0 ∨ k = 3 then UInt8.ofNat k :: List.replicate 11 0
  else if k < 4 then UInt8.ofNat k :: List.replicate 31 0
  else List.replicate (29 + k) 0

theorem sampleEntropy_injective : Function.Injective sampleEntropy := by
  have hsmall : ∀ i < 4, ∀ j < 4, sampleEntropy i = sampleEntropy j → i = j := by decide
  have hlength : ∀ k, (sampleEntropy k).length =
      if k < 4 then (sampleEntropy k).length else 29 + k := by
    intro k
    split_ifs with hk
    · rfl
    · rw [sampleEntropy, if_neg (by omega), if_neg hk, List.length_replicate]
  have hbound : ∀ k < 4, (sampleEntropy k).length ≤ 32 := by decide
  intro i j h
  have hi := hlength i
  have hj := hlength j
  rw [h] at hi
  by_cases hi4 : i < 4
  · by_cases hj4 : j < 4
    · exact hsmall i hi4 j hj4 h
    · have := hbound i hi4
      rw [h] at this
      rw [if_neg hj4] at hj
      omega
  · rw [if_neg hi4] at hi
    by_cases hj4 : j < 4
    · have := hbound j hj4
      omega
    · rw [if_neg hj4] at hj
      omega

def samplePlatform : Platform where
  clock n := some (1000 + n)
  entropy := sampleEntropy
  createPublicKey _ := some ⟨true, some 2048⟩
  verifies key message signature := signature == toToken (textEncode key ++ message)

def sampleAuthentication : AuthenticationOptions :=
  ⟨js "server", js "https://terminay.com", 60000, 60000, 64⟩

def sampleKey : Str := List.replicate 64 (unit 'k')

def sampleChallenge : DeviceChallenge :=
  ⟨js "challenge-1-AAAAAAAAAAAAAAAA", js "server", js "https://terminay.com", js "phone",
    toToken (sampleEntropy 1), 1002, 61002⟩

/-- A device is enrolled, challenged, verified and admitted. -/
theorem authentication_runs_phone : Authentic samplePlatform sampleAuthentication
    [.enroll ⟨some (js "phone"), js "Phone", sampleKey⟩,
      .createChallenge (js "phone") none,
      .sign sampleKey (challengeBytes sampleChallenge),
      .verify ⟨js "phone", sampleChallenge.challengeId,
        toToken (textEncode sampleKey ++ challengeBytes sampleChallenge), some (js "peer"), none⟩,
      .consumeTicket (toToken (sampleEntropy 2)) (some (js "peer"))] :=
  authentication_runs sampleEntropy_injective (by decide +kernel)

end Terminay.Remote
