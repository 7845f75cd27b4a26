import Terminay.Lib.Lists
import Terminay.Lib.Outcome
import Terminay.Lib.Runs
import Terminay.Remote.Pairing

/-!
# What a run of the pairing store keeps

An active room agrees with its record: nothing was admitted to it, nothing withdrew it, no reading
reached its expiry, and its failed attempts are the wrong secrets it was presented with.
-/

namespace Terminay.Remote
open Script Outcome PairingStore

def RoomEntry.accepts : RoomEntry → Bool
  | .accepted _ | .admitted _ => true
  | _ => false

namespace RoomRecord

/-- The record of a room that may still admit. -/
structure Live (r : RoomRecord) : Prop where
  unadmitted : ∀ secret, .admitted secret ∉ r.history
  kept : .withdrawn ∉ r.history
  early : ∀ time, .checked time ∈ r.history → ∃ t, time = some t ∧ t < r.expiresAt

structure Sound (limit : ℕ) (r : RoomRecord) : Prop where
  admits : ∀ past secret later, r.history = past ++ .admitted secret :: later →
    secret = r.secret ∧ (∀ other, .admitted other ∉ past) ∧ .withdrawn ∉ past ∧
      (∀ time, .checked time ∈ past → ∃ t, time = some t ∧ t < r.expiresAt) ∧
      ∃ before t, past = before ++ [.checked (some t)]
  locks : ∀ past entry later, r.history = past ++ entry :: later → entry.accepts = true →
    past.count .refused < limit

variable {limit : ℕ} {r : RoomRecord} {entry : RoomEntry}

theorem Sound.add (h : r.Sound limit)
    (hadmits : ∀ secret, entry = .admitted secret →
      secret = r.secret ∧ r.Live ∧ ∃ before t, r.history = before ++ [.checked (some t)])
    (hlocks : entry.accepts = true → r.history.count .refused < limit) :
    (r.add entry).Sound limit where
  admits past secret later hsplit := by
    rcases Lists.split_append_singleton hsplit with ⟨hpast, hentry⟩ | ⟨rest, hrest⟩
    · obtain ⟨hsecret, hlive, hlast⟩ := hadmits secret hentry.symm
      subst hpast
      exact ⟨hsecret, hlive.unadmitted, hlive.kept, hlive.early, hlast⟩
    · exact h.admits past secret rest hrest
  locks past e later hsplit haccepts := by
    rcases Lists.split_append_singleton hsplit with ⟨hpast, hentry⟩ | ⟨rest, hrest⟩
    · subst hpast
      exact hlocks (hentry ▸ haccepts)
    · exact h.locks past e rest hrest haccepts

theorem Sound.add_other (h : r.Sound limit) (hentry : entry.accepts = false) :
    (r.add entry).Sound limit := by
  refine h.add (fun secret he => ?_) fun haccepts => ?_
  · rw [he] at hentry
    cases hentry
  · rw [hentry] at haccepts
    cases haccepts

theorem Sound.start (secret : Str) (expiresAt : ℤ) :
    (⟨secret, expiresAt, []⟩ : RoomRecord).Sound limit where
  admits past secret later hsplit := by simp at hsplit
  locks past entry later hsplit := by simp at hsplit

theorem Live.add_checked (h : r.Live) {t : ℤ} (ht : t < r.expiresAt) :
    (r.add (.checked (some t))).Live where
  unadmitted secret hmem := by
    have hold : RoomEntry.admitted secret ∈ r.history := by simpa [RoomRecord.add] using hmem
    exact h.unadmitted secret hold
  kept := by simpa [RoomRecord.add] using h.kept
  early time hmem := by
    have hsplit : RoomEntry.checked time ∈ r.history ∨ time = some t := by
      simpa [RoomRecord.add] using hmem
    rcases hsplit with hold | hnew
    · exact h.early time hold
    · exact ⟨t, hnew, ht⟩

theorem Live.add_attempt (h : r.Live)
    (hentry : entry = .refused ∨ ∃ secret, entry = .accepted secret) : (r.add entry).Live := by
  rcases hentry with rfl | ⟨secret, rfl⟩
  all_goals
    refine ⟨fun other => ?_, ?_, fun time hmem => ?_⟩
    · simpa [RoomRecord.add] using h.unadmitted other
    · simpa [RoomRecord.add] using h.kept
    · exact h.early time (by simpa [RoomRecord.add] using hmem)

end RoomRecord

variable {δ : Type}

theorem due_false {time : Option ℤ} {expiresAt : ℤ} (h : due time expiresAt = false) :
    ∃ t, time = some t ∧ t < expiresAt := by
  rcases time with _ | t
  · cases h
  · exact ⟨t, rfl, by simpa [due] using h⟩

namespace PairingRoom
variable {room : PairingRoom δ} {time : Option ℤ} {state : RoomState} {limit : ℕ}

@[simp] theorem expire_serial : (room.expire time).serial = room.serial := by
  unfold expire
  split_ifs <;> rfl

theorem expire_active (h : (room.expire time).isActive = true) :
    room.expire time = room ∧ room.isActive = true ∧ due time room.expiresAt = false := by
  unfold expire at h ⊢
  split_ifs at h ⊢ with hdue
  · cases h
  · simp only [h, Bool.true_and, Bool.not_eq_true] at hdue
    exact ⟨rfl, h, hdue⟩

@[simp] theorem withdraw_serial : (room.withdraw state).serial = room.serial := by
  unfold withdraw
  split_ifs <;> rfl

theorem withdraw_inactive (hstate : state ≠ .active) : (room.withdraw state).isActive = false := by
  unfold withdraw
  split_ifs with hactive
  · simpa [isActive] using hstate
  · simpa using hactive

theorem withdraw_of_inactive (h : room.isActive = false) : room.withdraw state = room := by
  rw [withdraw, if_neg (by simp [h])]

end PairingRoom

variable {sha256 : Bytes → δ} {o : PairingOptions} {s : PairingStore δ}

structure Tracked (sha256 : Bytes → δ) (o : PairingOptions) (room : PairingRoom δ)
    (record : RoomRecord) : Prop where
  digest : room.secretDigest = digest sha256 record.secret
  wellFormed : isWellFormed record.secret = true
  expiresAt : room.expiresAt = record.expiresAt
  live : record.Live
  failed : record.history.count .refused = room.failedAttempts
  below : room.failedAttempts < o.maxFailedAttempts

structure Intact (sha256 : Bytes → δ) (o : PairingOptions) (s : PairingStore δ) : Prop where
  sound : ∀ record ∈ s.records, record.Sound o.maxFailedAttempts
  tracked : ∀ key room, s.rooms.get key = some room → room.isActive = true →
    ∃ record, s.records[room.serial]? = some record ∧ Tracked sha256 o room record
  numbered : ∀ key room, s.rooms.get key = some room → room.serial < s.records.length
  distinct : ∀ key key' room room', s.rooms.get key = some room → s.rooms.get key' = some room' →
    room.serial = room'.serial → key = key'
  bound : s.rooms.size ≤ o.maxRooms

theorem intact_initial : Intact sha256 o (PairingStore.initial : PairingStore δ) where
  sound record hmem := by cases hmem
  tracked key room hget := by cases hget
  numbered key room hget := by cases hget
  distinct key key' room room' hget := by cases hget
  bound := Nat.zero_le _

theorem Intact.expire (h : Intact sha256 o s) (now : Option ℤ) :
    Intact sha256 o (expireRooms now s) where
  sound record hmem := by
    obtain ⟨old, hold, rfl⟩ := List.mem_map.mp hmem
    exact (h.sound old hold).add_other rfl
  tracked key room hget hactive := by
    have hmap := (OrderedMap.get_map _ _ key).symm.trans hget
    obtain ⟨old, hold, rfl⟩ := Option.map_eq_some_iff.mp hmap
    obtain ⟨hsame, hwas, hdue⟩ := PairingRoom.expire_active hactive
    obtain ⟨record, hrecord, htracked⟩ := h.tracked key old hold hwas
    obtain ⟨t, htime, hearly⟩ := due_false hdue
    have hlater : t < record.expiresAt := htracked.expiresAt ▸ hearly
    refine ⟨record.add (.checked (currentTime now)), ?_, ?_⟩
    · simp [expireRooms, noteAll, hrecord]
    · rw [hsame, htime]
      exact ⟨htracked.digest, htracked.wellFormed, htracked.expiresAt,
        htracked.live.add_checked hlater,
        by simpa [RoomRecord.add] using htracked.failed, htracked.below⟩
  numbered key room hget := by
    have hmap := (OrderedMap.get_map _ _ key).symm.trans hget
    obtain ⟨old, hold, rfl⟩ := Option.map_eq_some_iff.mp hmap
    simpa [expireRooms, noteAll] using h.numbered key old hold
  distinct key key' room room' hget hget' hserial := by
    have hmap := (OrderedMap.get_map _ _ key).symm.trans hget
    have hmap' := (OrderedMap.get_map _ _ key').symm.trans hget'
    obtain ⟨old, hold, rfl⟩ := Option.map_eq_some_iff.mp hmap
    obtain ⟨old', hold', rfl⟩ := Option.map_eq_some_iff.mp hmap'
    exact h.distinct key key' old old' hold hold' (by simpa using hserial)
  bound := by simpa [expireRooms, noteAll] using h.bound

theorem Intact.withdraw (h : Intact sha256 o s) {state : RoomState} (hstate : state ≠ .active) :
    Intact sha256 o (withdrawRooms state s) where
  sound record hmem := by
    obtain ⟨old, hold, rfl⟩ := List.mem_map.mp hmem
    exact (h.sound old hold).add_other rfl
  tracked key room hget hactive := by
    have hmap := (OrderedMap.get_map _ _ key).symm.trans hget
    obtain ⟨old, hold, rfl⟩ := Option.map_eq_some_iff.mp hmap
    rw [PairingRoom.withdraw_inactive hstate] at hactive
    cases hactive
  numbered key room hget := by
    have hmap := (OrderedMap.get_map _ _ key).symm.trans hget
    obtain ⟨old, hold, rfl⟩ := Option.map_eq_some_iff.mp hmap
    simpa [withdrawRooms, noteAll] using h.numbered key old hold
  distinct key key' room room' hget hget' hserial := by
    have hmap := (OrderedMap.get_map _ _ key).symm.trans hget
    have hmap' := (OrderedMap.get_map _ _ key').symm.trans hget'
    obtain ⟨old, hold, rfl⟩ := Option.map_eq_some_iff.mp hmap
    obtain ⟨old', hold', rfl⟩ := Option.map_eq_some_iff.mp hmap'
    exact h.distinct key key' old old' hold hold' (by simpa using hserial)
  bound := by simpa [withdrawRooms, noteAll] using h.bound

theorem Intact.filter (h : Intact sha256 o s) (p : PairingRoom δ → Bool) :
    Intact sha256 o { s with rooms := s.rooms.filter p } where
  sound := h.sound
  tracked key room hget := h.tracked key room (OrderedMap.get_filter.mp hget).1
  numbered key room hget := h.numbered key room (OrderedMap.get_filter.mp hget).1
  distinct key key' room room' hget hget' :=
    h.distinct key key' room room' (OrderedMap.get_filter.mp hget).1
      (OrderedMap.get_filter.mp hget').1
  bound := (OrderedMap.size_filter_le p s.rooms).trans h.bound

theorem Intact.prune (h : Intact sha256 o s) (now : Option ℤ) :
    Intact sha256 o (pruneTerminalRooms now s) :=
  (h.expire now).filter _

theorem Intact.opened (h : Intact sha256 o s) {roomId secret : Str} (expiresAt : ℤ)
    (hsize : s.rooms.size < o.maxRooms) (habsent : s.rooms.get roomId = none)
    (hsecret : isWellFormed secret = true) :
    Intact sha256 o (openRoom sha256 o roomId secret expiresAt s).1 := by
  have hget : ∀ {key room}, (s.rooms.set roomId
      (newRoom sha256 o s.records.length roomId secret expiresAt)).get key = some room →
      (key = roomId ∧ room = newRoom sha256 o s.records.length roomId secret expiresAt) ∨
        s.rooms.get key = some room := by
    intro key room hroom
    rw [OrderedMap.get_set] at hroom
    split_ifs at hroom with hkey
    · exact .inl ⟨hkey, (Option.some.inj hroom).symm⟩
    · exact .inr hroom
  constructor
  case sound =>
    intro record hmem
    rcases List.mem_append.mp hmem with hold | hnew
    · exact h.sound record hold
    · rw [List.mem_singleton.mp hnew]
      exact RoomRecord.Sound.start secret expiresAt
  case tracked =>
    intro key room hroom hactive
    rcases hget hroom with ⟨-, rfl⟩ | hold
    · exact ⟨_, List.getElem?_concat_length, rfl, hsecret, rfl,
        ⟨by simp, by simp, by simp⟩, rfl, o.maxFailedAttempts_pos⟩
    · obtain ⟨record, hrecord, htracked⟩ := h.tracked key room hold hactive
      exact ⟨record, (List.getElem?_append_left (h.numbered key room hold)).trans hrecord, htracked⟩
  case numbered =>
    intro key room hroom
    have hlength : (openRoom sha256 o roomId secret expiresAt s).1.records.length =
        s.records.length + 1 := by simp [openRoom]
    rcases hget hroom with ⟨-, rfl⟩ | hold
    · simp only [newRoom, hlength]
      omega
    · have := h.numbered key room hold
      omega
  case distinct =>
    intro key key' room room' hroom hroom' hserial
    rcases hget hroom with ⟨hkey, rfl⟩ | hold <;> rcases hget hroom' with ⟨hkey', rfl⟩ | hold'
    · rw [hkey, hkey']
    · have := h.numbered key' room' hold'
      simp only [newRoom] at hserial
      omega
    · have := h.numbered key room hold
      simp only [newRoom] at hserial
      omega
    · exact h.distinct key key' room room' hold hold' hserial
  case bound =>
    simp only [openRoom, OrderedMap.size_set_absent habsent]
    omega

theorem Intact.attempted (h : Intact sha256 o s) {key : Str} {room next : PairingRoom δ}
    {rooms : OrderedMap Str (PairingRoom δ)} {record : RoomRecord} {entry : RoomEntry}
    (hroom : s.rooms.get key = some room) (hrecord : s.records[room.serial]? = some record)
    (hsound : (record.add entry).Sound o.maxFailedAttempts) (hsize : rooms.size = s.rooms.size)
    (hself : rooms.get key = some next) (hother : ∀ k, k ≠ key → rooms.get k = s.rooms.get k)
    (hserial : next.serial = room.serial)
    (htracked : next.isActive = true → Tracked sha256 o next (record.add entry)) :
    Intact sha256 o { note room.serial entry s with rooms := rooms } := by
  have hlength : (note room.serial entry s).records.length = s.records.length := by
    simp [note]
  have hget : ∀ {k r}, rooms.get k = some r →
      ∃ old, s.rooms.get k = some old ∧ r.serial = old.serial := by
    intro k r hr
    by_cases hk : k = key
    · subst hk
      rw [hself] at hr
      cases hr
      exact ⟨room, hroom, hserial⟩
    · exact ⟨r, (hother k hk).symm.trans hr, rfl⟩
  constructor
  case sound =>
    intro r hmem
    obtain ⟨i, hi⟩ := List.mem_iff_getElem?.mp hmem
    simp only [note, List.getElem?_modify] at hi
    split_ifs at hi with hserial
    · subst hserial
      rw [hrecord] at hi
      cases hi
      exact hsound
    · have hold : s.records[i]? = some r := by simpa using hi
      exact h.sound r (List.mem_of_getElem? hold)
  case tracked =>
    intro k r hr hactive
    by_cases hk : k = key
    · subst hk
      rw [hself] at hr
      cases hr
      exact ⟨record.add entry, by simp [note, hserial, hrecord], htracked hactive⟩
    · have hold := (hother k hk).symm.trans hr
      have hne : room.serial ≠ r.serial := fun heq => hk (h.distinct key k room r hroom hold heq).symm
      obtain ⟨found, hfound, htracks⟩ := h.tracked k r hold hactive
      exact ⟨found, by simp [note, hne, hfound], htracks⟩
  case numbered =>
    intro k r hr
    obtain ⟨old, hold, hsame⟩ := hget hr
    rw [hsame]
    exact (h.numbered k old hold).trans_eq hlength.symm
  case distinct =>
    intro k k' r r' hr hr' heq
    obtain ⟨old, hold, hsame⟩ := hget hr
    obtain ⟨old', hold', hsame'⟩ := hget hr'
    exact h.distinct k k' old old' hold hold' (hsame.symm.trans (heq.trans hsame'))
  case bound => exact hsize.trans_le h.bound

def Active (s : PairingStore δ) (serial : ℕ) : Prop :=
  ∃ key room, s.rooms.get key = some room ∧ room.serial = serial ∧ room.isActive = true

structure StaysClosed (s s' : PairingStore δ) : Prop where
  longer : s.records.length ≤ s'.records.length
  closed : ∀ serial, serial < s.records.length → Active s' serial → Active s serial

namespace StaysClosed
variable {s' s'' : PairingStore δ}

theorem refl (s : PairingStore δ) : StaysClosed s s := ⟨le_refl _, fun _ _ h => h⟩

theorem trans (h : StaysClosed s s') (h' : StaysClosed s' s'') : StaysClosed s s'' :=
  ⟨h.longer.trans h'.longer,
    fun serial hlt hactive => h.closed serial hlt
      (h'.closed serial (hlt.trans_le h.longer) hactive)⟩

theorem of_rooms (hlonger : s.records.length ≤ s'.records.length)
    (hrooms : ∀ key room, s'.rooms.get key = some room → room.isActive = true →
      ∃ old, s.rooms.get key = some old ∧ old.serial = room.serial ∧ old.isActive = true) :
    StaysClosed s s' := by
  refine ⟨hlonger, fun serial _ hactive => ?_⟩
  obtain ⟨key, room, hget, hserial, hroom⟩ := hactive
  obtain ⟨old, hold, hsame, hwas⟩ := hrooms key room hget hroom
  exact ⟨key, old, hold, hsame.trans hserial, hwas⟩

theorem expire (now : Option ℤ) (s : PairingStore δ) : StaysClosed s (expireRooms now s) := by
  apply of_rooms
  · simp [expireRooms, noteAll]
  · intro key room hget hactive
    have hmap := (OrderedMap.get_map _ _ key).symm.trans hget
    obtain ⟨old, hold, rfl⟩ := Option.map_eq_some_iff.mp hmap
    exact ⟨old, hold, by simp, (PairingRoom.expire_active hactive).2.1⟩

theorem withdraw {state : RoomState} (hstate : state ≠ .active) (s : PairingStore δ) :
    StaysClosed s (withdrawRooms state s) := by
  apply of_rooms
  · simp [withdrawRooms, noteAll]
  · intro key room hget hactive
    have hmap := (OrderedMap.get_map _ _ key).symm.trans hget
    obtain ⟨old, hold, rfl⟩ := Option.map_eq_some_iff.mp hmap
    rw [PairingRoom.withdraw_inactive hstate] at hactive
    cases hactive

theorem prune (now : Option ℤ) (s : PairingStore δ) :
    StaysClosed s (pruneTerminalRooms now s) := by
  refine (expire now s).trans (of_rooms (le_refl _) fun key room hget hactive => ?_)
  exact ⟨room, (OrderedMap.get_filter.mp hget).1, rfl, hactive⟩

theorem opened (roomId secret : Str) (expiresAt : ℤ) (s : PairingStore δ) :
    StaysClosed s (openRoom sha256 o roomId secret expiresAt s).1 := by
  refine ⟨by simp [openRoom], fun serial hlt hactive => ?_⟩
  obtain ⟨key, room, hget, hserial, hroom⟩ := hactive
  simp only [openRoom, OrderedMap.get_set] at hget
  split_ifs at hget with hkey
  · cases hget
    simp only [newRoom] at hserial
    omega
  · exact ⟨key, room, hget, hserial, hroom⟩

theorem noted (serial : ℕ) (entry : RoomEntry) (s : PairingStore δ) :
    StaysClosed s (note serial entry s) := by
  apply of_rooms
  · simp [note]
  · exact fun key room hget hactive => ⟨room, hget, rfl, hactive⟩

theorem replaced {key : Str} {room next : PairingRoom δ} (hget : s.rooms.get key = some room)
    (hserial : next.serial = room.serial) (hactive : room.isActive = true) :
    StaysClosed s (replace key next s) := by
  apply of_rooms
  · simp [replace]
  intro k r hr hlive
  simp only [replace, OrderedMap.get_set] at hr
  split_ifs at hr with hk
  · cases hr
    exact ⟨room, hk ▸ hget, hserial.symm, hactive⟩
  · exact ⟨r, hr, rfl, hlive⟩

end StaysClosed

/-- How `create` and `createIdentified` can end, after a pruning at a reading. -/
inductive Opening (sha256 : Bytes → δ) (o : PairingOptions) (pruned : Option ℤ)
    (s : PairingStore δ) : PairingStore δ × Except PairingError RoomTicket → Prop where
  | unchecked (e : PairingError) : Opening sha256 o pruned s (s, .error e)
  | refused (e : PairingError) : Opening sha256 o pruned s (pruneTerminalRooms pruned s, .error e)
  | opened (roomId secret : Str) (expiresAt : ℤ)
      (hsize : (pruneTerminalRooms pruned s).rooms.size < o.maxRooms)
      (habsent : (pruneTerminalRooms pruned s).rooms.get roomId = none)
      (hsecret : isWellFormed secret = true) :
      Opening sha256 o pruned s (openRoom sha256 o roomId secret expiresAt
        (pruneTerminalRooms pruned s))

theorem createUniqueCandidate_fresh [DecidableEq δ] {rooms : OrderedMap Str (PairingRoom δ)}
    {draws : List (Bytes × Bytes)} {found : Str × Str}
    (h : createUniqueCandidate sha256 rooms draws = .ok found) :
    rooms.get found.1 = none ∧ isWellFormed found.2 = true := by
  induction draws with
  | nil => cases h
  | cons draw draws ih =>
    obtain ⟨drawn, hdrawn, h⟩ := bind_ok.mp h
    split_ifs at h with hused
    · exact ih h
    · cases h
      obtain ⟨id, -, hrest⟩ := bind_ok.mp hdrawn
      obtain ⟨secret, -, hfound⟩ := bind_ok.mp hrest
      cases hfound
      simp only [inUse, Bool.or_eq_true, not_or] at hused
      exact ⟨by simpa using hused.1, toToken_wellFormed secret⟩

theorem create_opening [DecidableEq δ] (i : CreateInput) (s : PairingStore δ) :
    Opening sha256 o i.pruned s (create sha256 o i s) := by
  unfold create
  split
  · exact .unchecked _
  · dsimp only
    split_ifs with hfull
    · exact .refused _
    · split
      · exact .refused _
      · next found hfound =>
        have hfresh := createUniqueCandidate_fresh hfound
        exact .opened found.1 found.2 _ (by omega) hfresh.1 hfresh.2

theorem createIdentified_opening (i : IdentifiedInput) (hsecret : isWellFormed i.secret = true)
    (s : PairingStore δ) : Opening sha256 o i.pruned s (createIdentified sha256 o i s) := by
  unfold createIdentified
  split
  · exact .unchecked _
  · dsimp only
    split_ifs with hfull hid hlength hexists
    · exact .refused _
    · exact .refused _
    · exact .refused _
    · exact .refused _
    · exact .opened i.roomId i.secret _ (by omega) (by simpa using hexists) hsecret

theorem Intact.opening (h : Intact sha256 o s) {pruned : Option ℤ}
    {r : PairingStore δ × Except PairingError RoomTicket} (hr : Opening sha256 o pruned s r) :
    Intact sha256 o r.1 := by
  cases hr with
  | unchecked e => exact h
  | refused e => exact h.prune pruned
  | opened roomId secret expiresAt hsize habsent hsecret =>
    exact (h.prune pruned).opened expiresAt hsize habsent hsecret

section Attempts
variable {now : Option ℤ}

theorem addressed_ok {attempt : PairingAttempt} {room : PairingRoom δ} :
    addressed o attempt s = .ok room ↔
      (validId attempt.roomId = true ∧ attempt.serverId = o.serverId ∧
        attempt.sessionOrigin = o.sessionOrigin) ∧
      s.rooms.get attempt.roomId = some room ∧ room.isActive = true := by
  unfold addressed
  split_ifs with hforeign
  · simp only [false_iff, not_and]
    rintro ⟨hid, hserver, horigin⟩
    rcases hforeign with h | h | h
    · rw [hid] at h
      cases h
    · exact absurd hserver h
    · exact absurd horigin h
  · simp only [not_or, Bool.not_eq_false, not_not, ne_eq] at hforeign
    rcases hget : s.rooms.get attempt.roomId with _ | found
    · simp
    · simp only [Option.some.injEq]
      split_ifs with hactive
      · simp only [Except.ok.injEq]
        constructor
        · rintro rfl
          exact ⟨hforeign, rfl, hactive⟩
        · exact fun h => h.2.1
      · simp only [false_iff, not_and]
        rintro - rfl
        exact hactive

theorem Intact.checked (h : Intact sha256 o (expireRooms now s)) {key : Str} {room : PairingRoom δ}
    (hget : (expireRooms now s).rooms.get key = some room) (hactive : room.isActive = true) :
    ∃ record, (expireRooms now s).records[room.serial]? = some record ∧
      Tracked sha256 o room record ∧ ∃ before t, record.history = before ++ [.checked (some t)] := by
  obtain ⟨record, hrecord, htracked⟩ := h.tracked key room hget hactive
  refine ⟨record, hrecord, htracked, ?_⟩
  simp only [expireRooms, noteAll, List.getElem?_map, Option.map_eq_some_iff] at hrecord
  obtain ⟨old, -, rfl⟩ := hrecord
  obtain ⟨t, htime, -⟩ := htracked.live.early (currentTime now) (by simp [RoomRecord.add])
  exact ⟨old.history, t, by rw [htime]; rfl⟩

theorem Tracked.fail {room : PairingRoom δ} {record : RoomRecord} (h : Tracked sha256 o room record)
    (hactive : (room.fail o.maxFailedAttempts).isActive = true) :
    Tracked sha256 o (room.fail o.maxFailedAttempts) (record.add .refused) where
  digest := h.digest
  wellFormed := h.wellFormed
  expiresAt := h.expiresAt
  live := h.live.add_attempt (.inl rfl)
  failed := by simp [RoomRecord.add, PairingRoom.fail, h.failed]
  below := by
    by_cases hlimit : o.maxFailedAttempts ≤ room.failedAttempts + 1
    · simp [PairingRoom.isActive, PairingRoom.fail, hlimit] at hactive
    · simp only [PairingRoom.fail]
      omega

def counted (o : PairingOptions) (s : PairingStore δ) (attempt : PairingAttempt)
    (p : PairingRoom δ → Bool) : Bool :=
  match addressed o attempt s with
  | .ok room => attempt.secret.length ≤ 256 && p room
  | .error _ => true

variable [DecidableEq δ]

theorem Intact.consumed (hsha : Function.Injective sha256) (h : Intact sha256 o s)
    {attempt : PairingAttempt} {now : Option ℤ} (consumedAt : Option ℤ)
    (hsecret : isWellFormed attempt.secret = true)
    (hcounted : counted o (expireRooms now s) attempt (fun _ => true) = true) :
    Intact sha256 o (consume sha256 o attempt now consumedAt s).1 := by
  have hexpired := h.expire now
  unfold consume counted at *
  rcases haddressed : addressed o attempt (expireRooms now s) with e | room
  · simpa only [haddressed] using hexpired
  · obtain ⟨-, hget, hactive⟩ := addressed_ok.mp haddressed
    obtain ⟨record, hrecord, htracked, hlast⟩ := hexpired.checked hget hactive
    have hsound := hexpired.sound record (List.mem_of_getElem? hrecord)
    simp only [haddressed, Bool.and_true, decide_eq_true_eq] at hcounted
    simp only [haddressed]
    rw [if_neg (by omega)]
    split_ifs with hwrong
    · exact hexpired.attempted hget hrecord (hsound.add_other rfl)
        (OrderedMap.size_set_present hget _) (OrderedMap.get_set_self _ _ _)
        (fun k hk => OrderedMap.get_set_of_ne _ _ hk) rfl htracked.fail
    · have hsame : attempt.secret = record.secret := by
        have hdigest := htracked.digest.symm.trans (not_not.mp hwrong)
        exact (digest_injective sha256 hsha htracked.wellFormed hsecret hdigest).symm
      refine hexpired.attempted hget hrecord (hsound.add (fun secret heq => ?_) fun _ => ?_)
        (OrderedMap.size_set_present hget _) (OrderedMap.get_set_self _ _ _)
        (fun k hk => OrderedMap.get_set_of_ne _ _ hk) rfl (fun hclosed => ?_)
      · cases heq
        exact ⟨hsame, htracked.live, hlast⟩
      · exact htracked.failed.trans_lt htracked.below
      · cases hclosed

theorem Intact.asserted (h : Intact sha256 o s) {attempt : PairingAttempt}
    {now : Option ℤ} (hcounted : counted o (expireRooms now s) attempt
      (fun room => room.secretDigest == digest sha256 attempt.secret) = true) :
    Intact sha256 o (assertAvailable sha256 o attempt now s).1 := by
  have hexpired := h.expire now
  unfold assertAvailable counted at *
  rcases haddressed : addressed o attempt (expireRooms now s) with e | room
  · simpa only [haddressed] using hexpired
  · obtain ⟨-, hget, hactive⟩ := addressed_ok.mp haddressed
    obtain ⟨record, hrecord, htracked⟩ := hexpired.tracked _ room hget hactive
    have hsound := hexpired.sound record (List.mem_of_getElem? hrecord)
    simp only [haddressed, Bool.and_eq_true, decide_eq_true_eq, beq_iff_eq] at hcounted
    simp only [haddressed]
    rw [if_neg (by omega), if_neg (not_not.mpr hcounted.2)]
    refine hexpired.attempted hget hrecord (hsound.add (fun secret heq => ?_) fun _ => ?_) rfl hget
      (fun _ _ => rfl) rfl (fun _ => ?_)
    · cases heq
    · exact htracked.failed.trans_lt htracked.below
    · exact ⟨htracked.digest, htracked.wellFormed, htracked.expiresAt,
        htracked.live.add_attempt (.inr ⟨_, rfl⟩),
        by simpa [RoomRecord.add] using htracked.failed, htracked.below⟩

theorem StaysClosed.consumed (attempt : PairingAttempt) (now consumedAt : Option ℤ)
    (s : PairingStore δ) : StaysClosed s (consume sha256 o attempt now consumedAt s).1 := by
  have hexpired := StaysClosed.expire now s
  unfold consume
  rcases haddressed : addressed o attempt (expireRooms now s) with e | room
  · simpa only [haddressed] using hexpired
  · obtain ⟨-, hget, hactive⟩ := addressed_ok.mp haddressed
    simp only [haddressed]
    split_ifs
    · exact hexpired.trans (noted _ _ _)
    · exact (hexpired.trans (noted _ _ _)).trans (replaced hget rfl hactive)
    · exact (hexpired.trans (noted _ _ _)).trans (replaced hget rfl hactive)

theorem StaysClosed.asserted (attempt : PairingAttempt) (now : Option ℤ)
    (s : PairingStore δ) : StaysClosed s (assertAvailable sha256 o attempt now s).1 := by
  have hexpired := StaysClosed.expire now s
  unfold assertAvailable
  rcases haddressed : addressed o attempt (expireRooms now s) with e | room
  · simpa only [haddressed] using hexpired
  · simp only [haddressed]
    split_ifs
    · exact hexpired.trans (noted _ _ _)
    · exact hexpired.trans (noted _ _ _)
    · exact hexpired.trans (noted _ _ _)

end Attempts

section Conditions

def undue (time : Option ℤ) (s : PairingStore δ) : Bool :=
  s.rooms.values.all fun room => !(room.isActive && due time room.expiresAt)

def allActive (s : PairingStore δ) : Bool := s.rooms.values.all PairingRoom.isActive

def noneActive (s : PairingStore δ) : Bool := s.rooms.values.all fun room => !room.isActive

def wellAddressed (o : PairingOptions) (attempt : PairingAttempt) : Bool :=
  validId attempt.roomId && attempt.serverId == o.serverId &&
    attempt.sessionOrigin == o.sessionOrigin

def wellIdentified (i : IdentifiedInput) : Bool :=
  validId i.roomId && 16 ≤ i.secret.length && i.secret.length ≤ 256

def refusesExpiry : Except PairingError ℤ → Bool
  | .error e => e.isArgument
  | .ok _ => false

theorem expireRooms_undue (h : undue (currentTime now) s = true) :
    (expireRooms now s).rooms = s.rooms := by
  refine OrderedMap.map_eq_self fun room hroom => ?_
  have hquiet := List.all_eq_true.mp h room hroom
  rw [Bool.not_eq_true'] at hquiet
  rw [PairingRoom.expire, if_neg (by simp only [hquiet, Bool.false_eq_true, not_false_eq_true])]

theorem pruneTerminalRooms_undue (h : undue (currentTime now) s = true) (hall : allActive s = true) :
    (pruneTerminalRooms now s).rooms = s.rooms := by
  have hexpired := expireRooms_undue h
  rw [pruneTerminalRooms, hexpired]
  exact OrderedMap.filter_eq_self (List.all_eq_true.mp hall)

theorem withdrawn_noneActive (state : RoomState) (h : noneActive s = true) :
    (withdrawRooms state (expireRooms now s)).rooms = s.rooms := by
  have hnone : ∀ room ∈ s.rooms.values, room.isActive = false := fun room hroom => by
    simpa using List.all_eq_true.mp h room hroom
  have hexpired : (expireRooms now s).rooms = s.rooms :=
    OrderedMap.map_eq_self fun room hroom => by
      rw [PairingRoom.expire, if_neg (by simp [hnone room hroom])]
  simp only [withdrawRooms, noteAll, hexpired]
  exact OrderedMap.map_eq_self fun room hroom =>
    PairingRoom.withdraw_of_inactive (hnone room hroom)

theorem pruned_withdrawn {state : RoomState} (hstate : state ≠ .active) (later : Option ℤ) :
    (pruneTerminalRooms later (withdrawRooms state s)).rooms.values = [] := by
  refine List.eq_nil_iff_forall_not_mem.mpr fun room hroom => ?_
  obtain ⟨key, hget⟩ := OrderedMap.mem_values.mp hroom
  obtain ⟨hexpired, hactive⟩ := OrderedMap.get_filter.mp hget
  have hmap := (OrderedMap.get_map _ _ key).symm.trans hexpired
  obtain ⟨withdrawn, hwithdrawn, rfl⟩ := Option.map_eq_some_iff.mp hmap
  have hmap := (OrderedMap.get_map _ _ key).symm.trans hwithdrawn
  obtain ⟨old, -, rfl⟩ := Option.map_eq_some_iff.mp hmap
  have hstill := (PairingRoom.expire_active hactive).2.1
  rw [PairingRoom.withdraw_inactive hstate] at hstill
  cases hstill

variable [DecidableEq δ]

/-- The condition of one operation: secrets are well formed, a wrong secret is one that
`consume` counts, and arguments that are refused find no room to expire, prune or
rotate. -/
def clean (sha256 : Bytes → δ) (o : PairingOptions) (s : PairingStore δ) :
    PairingOperation → Bool
  | .createIdentified i =>
    isWellFormed i.secret &&
      (!isOk (validateExpiry o i.validated (i.expiresAt.value o)) ||
        (wellIdentified i && ((pruneTerminalRooms i.pruned s).rooms.get i.roomId).isNone) ||
        (undue (currentTime i.pruned) s && allActive s))
  | .rotate i =>
    noneActive s || !isOk (validateExpiry o i.validated (i.expiresAt.value o)) ||
      !refusesExpiry (validateExpiry o i.revalidated (i.expiresAt.value o))
  | .rotateIdentified _ i =>
    isWellFormed i.secret &&
      match validateExpiry o i.validated (i.expiresAt.value o) with
      | .error e => noneActive s || !e.isArgument
      | .ok _ => wellIdentified i || s.rooms.size == 0
  | .consume attempt now _ =>
    isWellFormed attempt.secret && (wellAddressed o attempt || undue (currentTime now) s) &&
      counted o (expireRooms now s) attempt fun _ => true
  | .assertAvailable attempt now =>
    isWellFormed attempt.secret && (wellAddressed o attempt || undue (currentTime now) s) &&
      counted o (expireRooms now s) attempt
        fun room => room.secretDigest == digest sha256 attempt.secret
  | _ => true

end Conditions

section Steps

theorem StaysClosed.opening {pruned : Option ℤ}
    {r : PairingStore δ × Except PairingError RoomTicket} (hr : Opening sha256 o pruned s r) :
    StaysClosed s r.1 := by
  cases hr with
  | unchecked e => exact refl s
  | refused e => exact prune pruned s
  | opened roomId secret expiresAt => exact (prune pruned s).trans (opened _ _ _ _)

variable [DecidableEq δ]

theorem Intact.step (hsha : Function.Injective sha256) (h : Intact sha256 o s)
    (operation : PairingOperation) (hclean : clean sha256 o s operation = true) :
    Intact sha256 o (pairingStep sha256 o s operation) := by
  have hrotated : ∀ now, Intact sha256 o (withdrawRooms .rotated (expireRooms now s)) :=
    fun now => (h.expire now).withdraw (by decide)
  cases operation with
  | create i => exact h.opening (create_opening i s)
  | createIdentified i =>
    simp only [clean, Bool.and_eq_true] at hclean
    exact h.opening (createIdentified_opening i hclean.1 s)
  | rotate i =>
    simp only [pairingStep, perform, answering, rotate]
    split
    · exact h
    · exact (hrotated i.expired).opening (create_opening _ _)
  | rotateIdentified expired i =>
    simp only [clean, Bool.and_eq_true] at hclean
    exact (hrotated expired).opening (createIdentified_opening i hclean.1 _)
  | consume attempt now consumedAt =>
    simp only [clean, Bool.and_eq_true] at hclean
    exact h.consumed hsha consumedAt hclean.1.1 hclean.2
  | assertAvailable attempt now =>
    simp only [clean, Bool.and_eq_true] at hclean
    exact h.asserted hclean.2
  | metadata roomId now => exact h.expire now
  | list now => exact h.expire now
  | cleanup now => exact h.prune now
  | disable now => exact (h.expire now).withdraw (by decide)

theorem StaysClosed.step (operation : PairingOperation)
    (hclean : clean sha256 o s operation = true) :
    StaysClosed s (pairingStep sha256 o s operation) := by
  have hrotated : ∀ now, StaysClosed s (withdrawRooms .rotated (expireRooms now s)) :=
    fun now => (expire now s).trans (withdraw (by decide) _)
  cases operation with
  | create i => exact opening (create_opening i s)
  | createIdentified i =>
    simp only [clean, Bool.and_eq_true] at hclean
    exact opening (createIdentified_opening i hclean.1 s)
  | rotate i =>
    simp only [pairingStep, perform, answering, rotate]
    split
    · exact refl s
    · exact (hrotated i.expired).trans (opening (create_opening _ _))
  | rotateIdentified expired i =>
    simp only [clean, Bool.and_eq_true] at hclean
    exact (hrotated expired).trans (opening (createIdentified_opening i hclean.1 _))
  | consume attempt now consumedAt => exact consumed attempt now consumedAt s
  | assertAvailable attempt now => exact asserted attempt now s
  | metadata roomId now => exact expire now s
  | list now => exact expire now s
  | cleanup now => exact prune now s
  | disable now => exact (expire now s).trans (withdraw (by decide) _)

end Steps

section Refusals

theorem validateExpiry_given {now expiresAt : Option ℤ} {e : ℤ}
    (h : validateExpiry o now expiresAt = .ok e) : expiresAt = some e := by
  unfold validateExpiry at h
  split at h
  · cases h
  · split at h
    · cases h
    · split_ifs at h
      cases h
      rfl

theorem createIdentified_refusal {i : IdentifiedInput} {e : PairingError}
    (h : (createIdentified sha256 o i s).2 = .error e) (he : e.isArgument = true) :
    ((createIdentified sha256 o i s).1 = s ∧
      validateExpiry o i.validated (i.expiresAt.value o) = .error e) ∨
    ((createIdentified sha256 o i s).1 = pruneTerminalRooms i.pruned s ∧
      isOk (validateExpiry o i.validated (i.expiresAt.value o)) = true ∧
      (wellIdentified i && ((pruneTerminalRooms i.pruned s).rooms.get i.roomId).isNone) = false) := by
  unfold createIdentified at h ⊢
  rcases hexpiry : validateExpiry o i.validated (i.expiresAt.value o) with e' | expiresAt
  · simp only [hexpiry] at h
    cases h
    exact .inl ⟨rfl, rfl⟩
  · refine .inr ?_
    simp only [hexpiry] at h ⊢
    split_ifs at h ⊢ with hfull hid hlength hexists
    · cases h
      cases he
    · exact ⟨rfl, rfl, by simp [wellIdentified, hid]⟩
    · refine ⟨rfl, rfl, ?_⟩
      simp only [wellIdentified, Bool.and_eq_false_iff, decide_eq_false_iff_not, not_le]
      omega
    · refine ⟨rfl, rfl, ?_⟩
      rw [Bool.and_eq_false_iff]
      exact .inr (by simpa using hexists)
    · cases h

theorem undue_of_foreign {attempt : PairingAttempt} {now : Option ℤ} {t : PairingStore δ}
    {e : PairingError} (h : addressed o attempt t = .error e) (he : e.isArgument = true)
    (hclean : wellAddressed o attempt = true ∨ undue (currentTime now) s = true) :
    undue (currentTime now) s = true := by
  refine hclean.resolve_left fun hwell => ?_
  simp only [wellAddressed, Bool.and_eq_true, beq_iff_eq] at hwell
  unfold addressed at h
  rw [if_neg (by simp [hwell])] at h
  split at h
  · cases h
    cases he
  · split_ifs at h
    cases h
    cases he

variable [DecidableEq δ]

theorem createUniqueCandidate_error {rooms : OrderedMap Str (PairingRoom δ)}
    {draws : List (Bytes × Bytes)} {e : PairingError}
    (h : createUniqueCandidate sha256 rooms draws = .error e) : e.isArgument = false := by
  induction draws with
  | nil =>
    cases h
    rfl
  | cons draw draws ih =>
    have hentropy : ∀ {size bytes e}, entropy size bytes = .error e → e.isArgument = false := by
      intro size bytes e he
      unfold entropy at he
      split_ifs at he
      cases he
      rfl
    rw [createUniqueCandidate, candidate] at h
    rcases hid : entropy 16 draw.1 with e' | id
    · rw [hid] at h
      cases h
      exact hentropy hid
    rcases hsecret : entropy PAIRING_SECRET_BYTES draw.2 with e' | secret
    · rw [hid, hsecret] at h
      cases h
      exact hentropy hsecret
    rw [hid, hsecret] at h
    simp only [bind, Except.bind, pure, Except.pure] at h
    split_ifs at h
    exact ih h

theorem create_refusal {i : CreateInput} {e : PairingError}
    (h : (create sha256 o i s).2 = .error e) (he : e.isArgument = true) :
    (create sha256 o i s).1 = s ∧
      validateExpiry o i.validated (i.expiresAt.value o) = .error e := by
  unfold create at h ⊢
  rcases hexpiry : validateExpiry o i.validated (i.expiresAt.value o) with e' | expiresAt
  · simp only [hexpiry] at h
    cases h
    exact ⟨rfl, rfl⟩
  · simp only [hexpiry] at h
    split_ifs at h with hfull
    · cases h
      cases he
    · split at h
      · next e' hcandidate =>
        cases h
        rw [createUniqueCandidate_error hcandidate] at he
        cases he
      · cases h

theorem perform_refusal (operation : PairingOperation)
    (hclean : clean sha256 o s operation = true) {e : PairingError}
    (h : (perform sha256 o operation s).2 = .error e) (he : e.isArgument = true) :
    (perform sha256 o operation s).1.rooms = s.rooms := by
  have hmap : ∀ {α} {f : α → PairingAnswer} {r : PairingStore δ × Except PairingError α},
      (answering f r).2 = .error e → r.2 = .error e := by
    intro α f r hr
    rcases hvalue : r.2 with e' | a
    · simpa [answering, hvalue, Except.map] using hr
    · simp [answering, hvalue, Except.map] at hr
  cases operation with
  | create i => exact congrArg PairingStore.rooms (create_refusal (hmap h) he).1
  | createIdentified i =>
    simp only [clean, Bool.and_eq_true] at hclean
    rcases createIdentified_refusal (hmap h) he with ⟨hsame, -⟩ | ⟨hsame, hexpiry, hbad⟩
    · exact congrArg PairingStore.rooms hsame
    · have hquiet := hclean.2
      rw [hexpiry, hbad, Bool.not_true, Bool.false_or, Bool.false_or, Bool.and_eq_true] at hquiet
      exact (congrArg PairingStore.rooms hsame).trans (pruneTerminalRooms_undue hquiet.1 hquiet.2)
  | rotate i =>
    replace h := hmap h
    simp only [clean] at hclean
    simp only [perform, answering]
    unfold rotate at h ⊢
    rcases hexpiry : validateExpiry o i.validated (i.expiresAt.value o) with e' | expiresAt
    · rfl
    · simp only [hexpiry] at h ⊢
      obtain ⟨hsame, hagain⟩ := create_refusal h he
      have hgiven := validateExpiry_given hexpiry
      rw [Expiry.value, ← hgiven] at hagain
      rw [hexpiry, hagain, refusesExpiry, he] at hclean
      rw [hsame]
      exact withdrawn_noneActive .rotated (by simpa [isOk] using hclean)
  | rotateIdentified expired i =>
    simp only [clean, Bool.and_eq_true] at hclean
    rcases createIdentified_refusal (hmap h) he with ⟨hsame, hexpiry⟩ | ⟨hsame, hexpiry, hbad⟩
    · rw [hexpiry] at hclean
      have hnone : noneActive s = true := by simpa [he] using hclean.2
      exact (congrArg PairingStore.rooms hsame).trans (withdrawn_noneActive .rotated hnone)
    · -- A rotated store is pruned to nothing, so the id cannot be taken.
      have hrotated : RoomState.rotated ≠ .active := by decide
      have hvalues := pruned_withdrawn (s := expireRooms expired s) hrotated i.pruned
      have hnothing := OrderedMap.eq_empty ((OrderedMap.size_values _).symm.trans
        (congrArg List.length hvalues))
      obtain ⟨expiresAt, hvalid⟩ := isOk_iff.mp hexpiry
      rw [hnothing, OrderedMap.get_empty, Option.isNone_none, Bool.and_true] at hbad
      rw [hvalid, hbad, Bool.false_or, beq_iff_eq] at hclean
      calc (createIdentified sha256 o i (withdrawRooms .rotated (expireRooms expired s))).1.rooms
          = (pruneTerminalRooms i.pruned (withdrawRooms .rotated (expireRooms expired s))).rooms :=
            congrArg PairingStore.rooms hsame
        _ = OrderedMap.empty := hnothing
        _ = s.rooms := (OrderedMap.eq_empty hclean.2).symm
  | consume attempt now consumedAt =>
    simp only [clean, Bool.and_eq_true, Bool.or_eq_true] at hclean
    replace h := hmap h
    simp only [perform, answering]
    unfold consume at h ⊢
    unfold counted at hclean
    rcases haddressed : addressed o attempt (expireRooms now s) with e' | room
    · simp only [haddressed] at h ⊢
      cases h
      exact expireRooms_undue (undue_of_foreign haddressed he hclean.1.2)
    · simp only [haddressed, Bool.and_true, decide_eq_true_eq] at h hclean
      rw [if_neg (by omega)] at h
      split_ifs at h
      · cases h
        cases he
  | assertAvailable attempt now =>
    simp only [clean, Bool.and_eq_true, Bool.or_eq_true] at hclean
    replace h := hmap h
    simp only [perform, answering]
    unfold assertAvailable at h ⊢
    unfold counted at hclean
    rcases haddressed : addressed o attempt (expireRooms now s) with e' | room
    · simp only [haddressed] at h ⊢
      cases h
      exact expireRooms_undue (undue_of_foreign haddressed he hclean.1.2)
    · simp only [haddressed, Bool.and_eq_true, decide_eq_true_eq, beq_iff_eq] at h hclean
      rw [if_neg (by omega), if_neg (not_not.mpr hclean.2.2)] at h
      cases h
  | metadata roomId now => cases h
  | list now => cases h
  | cleanup now => cases h
  | disable now => cases h

end Refusals

section Runs
variable [DecidableEq δ]

abbrev afterPairing (sha256 : Bytes → δ) (o : PairingOptions) (operations : List PairingOperation) :
    PairingStore δ :=
  Runs.after (pairingStep sha256 o) PairingStore.initial operations

structure Guarded (sha256 : Bytes → δ) (o : PairingOptions) (operations : List PairingOperation) :
    Prop where
  records : ∀ record ∈ (afterPairing sha256 o operations).records, record.Sound o.maxFailedAttempts
  closed : ∀ past later, operations = past ++ later → ∀ serial,
    serial < (afterPairing sha256 o past).records.length →
    Active (afterPairing sha256 o operations) serial → Active (afterPairing sha256 o past) serial
  bound : (afterPairing sha256 o operations).rooms.size ≤ o.maxRooms
  refusals : ∀ past operation later e, operations = past ++ operation :: later →
    (perform sha256 o operation (afterPairing sha256 o past)).2 = .error e → e.isArgument = true →
    (perform sha256 o operation (afterPairing sha256 o past)).1.rooms =
      (afterPairing sha256 o past).rooms

theorem pairing_runs (hsha : Function.Injective sha256) {operations : List PairingOperation}
    (h : Runs.Meets (pairingStep sha256 o) (fun s operation => clean sha256 o s operation = true)
      PairingStore.initial operations) : Guarded sha256 o operations := by
  have hintact : Intact sha256 o (afterPairing sha256 o operations) :=
    Runs.invariant_of_meets (fun s operation hs hclean => hs.step hsha operation hclean)
      intact_initial h
  constructor
  case records => exact hintact.sound
  case closed =>
    intro past later hsplit
    subst hsplit
    have hclosed : StaysClosed (afterPairing sha256 o past)
        (Runs.after (pairingStep sha256 o) (afterPairing sha256 o past) later) :=
      Runs.invariant_of_meets (fun s operation hs hclean => hs.trans (.step operation hclean))
        (StaysClosed.refl _) (Runs.meets_append.mp h).2
    intro serial hlt hactive
    simp only [afterPairing, Runs.after_append] at hactive
    exact hclosed.closed serial hlt hactive
  case bound => exact hintact.bound
  case refusals =>
    intro past operation later e hsplit hrefused hargument
    subst hsplit
    exact perform_refusal operation (Runs.meets_append.mp h).2.1 hrefused hargument

def pairingOptions : PairingOptions :=
  ⟨js "server", js "https://terminay.com", 16, 5, 300000, 900000, by decide, by decide⟩

def hostedRoom : IdentifiedInput :=
  ⟨js "room", js "correct horse battery", .default (some 1000), some 1000, some 1000⟩

def pairingAttempt (secret : String) : PairingAttempt :=
  ⟨js "room", js "server", js "https://terminay.com", js secret⟩

theorem pairing_runs_hosted :
    Guarded id pairingOptions [.createIdentified hostedRoom,
      .consume (pairingAttempt "wrong") (some 2000) (some 2000),
      .assertAvailable (pairingAttempt "correct horse battery") (some 3000),
      .consume (pairingAttempt "correct horse battery") (some 3000) (some 3000)] :=
  pairing_runs Function.injective_id (by decide +kernel)

/-- Five wrong secrets shown to `assertAvailable` do not lock the room. -/
theorem pairing_not_guarded :
    ¬ Guarded id pairingOptions (.createIdentified hostedRoom ::
      List.replicate 5 (.assertAvailable (pairingAttempt "wrong") (some 2000)) ++
      [.consume (pairingAttempt "correct horse battery") (some 3000) (some 3000)]) := by
  intro h
  have hmember : RoomRecord.mk (js "correct horse battery") 301000
      ((List.replicate 5 [.checked (some 2000), .refused]).flatten ++
        [.checked (some 3000), .admitted (js "correct horse battery")]) ∈
      (afterPairing id pairingOptions (.createIdentified hostedRoom ::
        List.replicate 5 (.assertAvailable (pairingAttempt "wrong") (some 2000)) ++
        [.consume (pairingAttempt "correct horse battery") (some 3000) (some 3000)])).records := by
    decide +kernel
  have hlocked := (h.records _ hmember).locks
    ((List.replicate 5 [.checked (some 2000), .refused]).flatten ++ [.checked (some 3000)])
    (.admitted (js "correct horse battery")) [] (by decide +kernel) rfl
  exact absurd hlocked (by decide)

end Runs

end Terminay.Remote
