import Terminay.Terminal.CheckpointPins

/-!
# Pins over whole runs

An id is live in one session, the pinned bytes are those of the live pins and within their limit,
and the bytes of a pin are handed out at most once, in its scope, before it expires and before it
ends.
-/

namespace Terminay.Terminal.Pins
open Script Workspace Outcome Authority

variable {limits : Limits} {bounded : Bool} {a b : Authority} {o o' : ℕ} {p q pin : MutablePin}

/-! ## The record of the pins -/

structure Handout (before : List PinEvent) (serial : ℕ) (scope : Scope) (now : ℤ) : Prop where
  minted : ∃ pin, .minted pin ∈ before ∧ pin.serial = serial ∧ now < pin.expiresAt ∧
    pin.identity = scope.identity ∧ pin.clientId = scope.clientId
  bound : .bound serial scope ∈ before
  only : ∀ other, .bound serial other ∈ before → other = scope
  kept : .ended serial ∉ before
  once : ∀ other time, .handed serial other time ∉ before

def Permitted (before : List PinEvent) : PinEvent → Prop
  | .handed serial scope now => Handout before serial scope now
  | _ => True

def Lawful (log : List PinEvent) : Prop :=
  ∀ before event after, log = before ++ event :: after → Permitted before event

theorem Lawful.nil : Lawful [] := by
  intro before event after h
  simp at h

theorem Lawful.concat {log : List PinEvent} {event : PinEvent} (h : Lawful log)
    (hevent : Permitted log event) : Lawful (log ++ [event]) := by
  intro before other after heq
  rcases List.eq_nil_or_concat after with rfl | ⟨more, last, rfl⟩
  · obtain ⟨rfl, hsame⟩ := List.append_inj' heq rfl
    obtain rfl := List.singleton_injective hsame
    exact hevent
  · rw [List.concat_eq_append, ← List.cons_append, ← List.append_assoc] at heq
    obtain ⟨rfl, -⟩ := List.append_inj' heq rfl
    exact h before other more rfl

theorem Lawful.ended {log : List PinEvent} (h : Lawful log) (serials : List ℕ) :
    Lawful (log ++ serials.map .ended) := by
  induction serials generalizing log with
  | nil => simpa using h
  | cons serial serials ih =>
    rw [List.map_cons, ← List.singleton_append, ← List.append_assoc]
    exact ih (h.concat trivial)

structure Tracked (log : List PinEvent) (p : MutablePin) : Prop where
  minted : ∃ pin, .minted pin ∈ log ∧ pin.serial = p.serial ∧ pin.expiresAt = p.expiresAt ∧
    pin.identity = p.identity ∧ pin.clientId = p.clientId
  kept : .ended p.serial ∉ log
  whole : ∀ scope now, .handed p.serial scope now ∉ log
  only : ∀ scope, .bound p.serial scope ∈ log → scope.identity = p.identity ∧
    scope.clientId = p.clientId ∧ p.attachmentId = some scope.attachmentId
  bound : ∀ attachmentId, p.attachmentId = some attachmentId →
    .bound p.serial ⟨p.identity, p.clientId, attachmentId⟩ ∈ log

theorem Tracked.append {log events : List PinEvent} (h : Tracked log p)
    (hother : ∀ event ∈ events, event.serial ≠ p.serial) : Tracked (log ++ events) p := by
  have hnew : ∀ event ∈ log ++ events, event.serial = p.serial → event ∈ log := by
    intro event hevent hserial
    rcases List.mem_append.mp hevent with hold | hnew
    · exact hold
    · exact absurd hserial (hother event hnew)
  refine ⟨?_, fun hended => h.kept (hnew _ hended rfl), fun scope now hhanded =>
    h.whole scope now (hnew _ hhanded rfl), fun scope hbound => h.only scope (hnew _ hbound rfl),
    fun attachmentId hat => List.mem_append_left _ (h.bound attachmentId hat)⟩
  obtain ⟨pin, hpin, hrest⟩ := h.minted
  exact ⟨pin, List.mem_append_left _ hpin, hrest⟩

/-! ## The pins of a session -/

structure SessionSound (limits : Limits) (bounded : Bool) (s : PinSession) : Prop where
  ids : (s.pins.map (·.checkpointId)).Nodup
  pinned : s.pinnedBytes = ((s.pins.map (·.byteLength)).sum : ℕ)
  fits : s.pinnedBytes ≤ limits.maxPinnedBytesPerSession
  room : bounded = true → s.pins.length ≤ limits.maxPinsPerSession

theorem sum_filter {pins : List MutablePin} (hids : (pins.map (·.checkpointId)).Nodup)
    (hpin : pin ∈ pins) :
    (pins.map (·.byteLength)).sum =
      ((pins.filter (·.checkpointId ≠ pin.checkpointId)).map (·.byteLength)).sum +
        pin.byteLength := by
  induction pins with
  | nil => cases hpin
  | cons q pins ih =>
    rw [List.map_cons, List.nodup_cons] at hids
    obtain ⟨hfresh, hids⟩ := hids
    rcases List.mem_cons.mp hpin with rfl | hpin
    · have hall : pins.filter (·.checkpointId ≠ pin.checkpointId) = pins := by
        refine List.filter_eq_self.mpr fun r hr => decide_eq_true ?_
        intro hsame
        exact hfresh (List.mem_map.mpr ⟨r, hr, hsame⟩)
      rw [List.filter_cons_of_neg (by simp), hall, List.map_cons, List.sum_cons]
      omega
    · have hne : q.checkpointId ≠ pin.checkpointId := by
        intro hsame
        exact hfresh (List.mem_map.mpr ⟨pin, hpin, hsame.symm⟩)
      have hrest := ih hids hpin
      rw [List.filter_cons_of_pos (by simpa using hne), List.map_cons, List.map_cons, List.sum_cons,
        List.sum_cons]
      omega

theorem SessionSound.removed {s : PinSession} (h : SessionSound limits bounded s)
    (hpin : pin ∈ s.pins) : SessionSound limits bounded
      { s with
        pins := s.pins.filter (·.checkpointId ≠ pin.checkpointId)
        pinnedBytes := s.pinnedBytes - pin.byteLength } := by
  have hsum := sum_filter h.ids hpin
  have hpinned := h.pinned
  have hfits := h.fits
  refine ⟨h.ids.sublist (List.filter_sublist.map _), ?_, ?_, fun hroom =>
    (List.length_filter_le _ _).trans (h.room hroom)⟩
  · dsimp only
    rw [hpinned, hsum]
    push_cast
    omega
  · dsimp only
    omega

theorem SessionSound.mapped {s : PinSession} {f : MutablePin → MutablePin}
    (h : SessionSound limits bounded s) (hid : ∀ p, (f p).checkpointId = p.checkpointId)
    (hsize : ∀ p, (f p).byteLength = p.byteLength) :
    SessionSound limits bounded { s with pins := s.pins.map f } := by
  have hids : ((s.pins.map f).map (·.checkpointId)) = s.pins.map (·.checkpointId) := by
    rw [List.map_map]
    exact List.map_congr_left fun p _ => hid p
  have hsizes : ((s.pins.map f).map (·.byteLength)) = s.pins.map (·.byteLength) := by
    rw [List.map_map]
    exact List.map_congr_left fun p _ => hsize p
  refine ⟨?_, ?_, h.fits, fun hroom => ?_⟩
  · dsimp only
    rw [hids]
    exact h.ids
  · dsimp only
    rw [hsizes]
    exact h.pinned
  · dsimp only
    rw [List.length_map]
    exact h.room hroom

/-! ## The authority -/

def Live (a : Authority) (o : ℕ) (p : MutablePin) : Prop := o ∈ a.sessions ∧ p ∈ a.pinsOf o

structure Sound (limits : Limits) (bounded : Bool) (a : Authority) : Prop where
  listed : a.sessions.Nodup
  sessions : ∀ o ∈ a.sessions, ∃ s, a.held[o]? = some s ∧ SessionSound limits bounded s
  ids : ∀ o p o' q, Live a o p → Live a o' q → p.checkpointId = q.checkpointId → o = o'
  serials : ∀ o p o' q, Live a o p → Live a o' q → p.serial = q.serial → o = o' ∧ p = q
  named : ∀ o p, Live a o p → p.checkpointId ≠ []
  tracked : ∀ o p, Live a o p → Tracked a.log p ∧ p.serial < a.minted
  recorded : ∀ event ∈ a.log, event.serial < a.minted
  lawful : Lawful a.log

theorem held_update (f : PinSession → PinSession) :
    (a.update o f).held[o']? = if o = o' then a.held[o']?.map f else a.held[o']? := by
  rw [Authority.update, List.getElem?_modify]
  split_ifs <;> simp

theorem held_self (f : PinSession → PinSession) :
    (a.update o f).held[o]? = a.held[o]?.map f := by
  rw [held_update, if_pos rfl]

theorem pinsOf_held {s : PinSession} (hs : a.held[o]? = some s) : a.pinsOf o = s.pins := by
  rw [Authority.pinsOf, hs]
  rfl

theorem pinsOf_update (f : PinSession → PinSession) (hne : o ≠ o') :
    (a.update o f).pinsOf o' = a.pinsOf o' := by
  rw [Authority.pinsOf, held_update, if_neg hne, Authority.pinsOf]

section Sound

variable (h : Sound limits bounded a)
include h

theorem Sound.live_eq (hp : Live a o p) (hq : Live a o' q)
    (hid : p.checkpointId = q.checkpointId) : o = o' ∧ p = q := by
  have hsame := h.ids o p o' q hp hq hid
  subst hsame
  obtain ⟨s, hs, hsound⟩ := h.sessions o hp.1
  have hp' := hp.2
  have hq' := hq.2
  rw [pinsOf_held hs] at hp' hq'
  exact ⟨rfl, List.inj_on_of_nodup_map hsound.ids hp' hq' hid⟩

/-- A change that leaves fewer live pins, and none that the log speaks of. -/
theorem Sound.shrink (events : List PinEvent) (hlisted : b.sessions.Nodup)
    (hsessions : ∀ o ∈ b.sessions, ∃ s, b.held[o]? = some s ∧ SessionSound limits bounded s)
    (hlive : ∀ o p, Live b o p → Live a o p ∧ ∀ event ∈ events, event.serial ≠ p.serial)
    (hminted : b.minted = a.minted) (hlog : b.log = a.log ++ events)
    (hevents : ∀ event ∈ events, event.serial < a.minted) (hlawful : Lawful b.log) :
    Sound limits bounded b where
  listed := hlisted
  sessions := hsessions
  ids o p o' q hp hq := h.ids o p o' q (hlive o p hp).1 (hlive o' q hq).1
  serials o p o' q hp hq := h.serials o p o' q (hlive o p hp).1 (hlive o' q hq).1
  named o p hp := h.named o p (hlive o p hp).1
  tracked o p hp := by
    obtain ⟨hold, hother⟩ := hlive o p hp
    obtain ⟨htracked, hserial⟩ := h.tracked o p hold
    rw [hlog, hminted]
    exact ⟨htracked.append hother, hserial⟩
  recorded event hevent := by
    rw [hlog] at hevent
    rw [hminted]
    rcases List.mem_append.mp hevent with hold | hnew
    · exact h.recorded event hold
    · exact hevents event hnew
  lawful := hlawful

theorem Sound.same (hheld : b.held = a.held) (hlist : b.sessions = a.sessions)
    (hminted : b.minted = a.minted) (hlog : b.log = a.log) : Sound limits bounded b := by
  have hpins : ∀ o, b.pinsOf o = a.pinsOf o := by
    intro o
    rw [Authority.pinsOf, hheld, Authority.pinsOf]
  refine h.shrink [] (hlist ▸ h.listed) (by rw [hlist, hheld]; exact h.sessions) ?_
    hminted (by rw [hlog, List.append_nil]) (by simp) (hlog ▸ h.lawful)
  intro o p hp
  unfold Live at hp ⊢
  rw [hlist, hpins] at hp
  exact ⟨hp, by simp⟩

theorem live_remove {p : MutablePin} (hp : Live (a.remove o pin) o' p) :
    Live a o' p ∧ (o = o' → p.checkpointId ≠ pin.checkpointId) := by
  obtain ⟨hlisted, hmem⟩ := hp
  change p ∈ (a.update o _).pinsOf o' at hmem
  by_cases ho : o = o'
  · subst ho
    obtain ⟨s, hs, -⟩ := h.sessions o hlisted
    have hs' := held_self (a := a) (o := o) fun s : PinSession =>
      { s with
        pins := s.pins.filter (·.checkpointId ≠ pin.checkpointId)
        pinnedBytes := s.pinnedBytes - pin.byteLength }
    rw [hs] at hs'
    rw [pinsOf_held hs'] at hmem
    obtain ⟨hmem, hne⟩ := List.mem_filter.mp hmem
    exact ⟨⟨hlisted, by rwa [pinsOf_held hs]⟩, fun _ => of_decide_eq_true hne⟩
  · rw [pinsOf_update _ ho] at hmem
    exact ⟨⟨hlisted, hmem⟩, fun hsame => absurd hsame ho⟩

theorem Sound.apart (hpin : Live a o pin) {p : MutablePin} (hp : Live a o' p)
    (hother : o = o' → p.checkpointId ≠ pin.checkpointId) : pin.serial ≠ p.serial := by
  intro hserial
  obtain ⟨rfl, rfl⟩ := h.serials o pin o' p hpin hp hserial
  exact hother rfl rfl

theorem Sound.remove (hpin : Live a o pin) : Sound limits bounded (a.remove o pin) := by
  refine h.shrink [.ended pin.serial] h.listed ?_ ?_ rfl rfl ?_ (h.lawful.concat trivial)
  · intro o' ho'
    obtain ⟨s, hs, hsound⟩ := h.sessions o' ho'
    change ∃ s, (a.update o _).held[o']? = some s ∧ _
    rw [held_update]
    split_ifs with ho
    · subst ho
      have hmem := hpin.2
      rw [pinsOf_held hs] at hmem
      rw [hs]
      exact ⟨_, rfl, hsound.removed hmem⟩
    · exact ⟨s, hs, hsound⟩
  · intro o' p hp
    obtain ⟨hold, hother⟩ := live_remove h hp
    refine ⟨hold, fun event hevent => ?_⟩
    rw [List.mem_singleton.mp hevent]
    exact h.apart hpin hold hother
  · intro event hevent
    rw [List.mem_singleton.mp hevent]
    exact (h.tracked o pin hpin).2

omit h in
theorem holder_live {checkpointId : Str} (hholder : a.holder checkpointId = some (o, pin)) :
    Live a o pin ∧ pin.checkpointId = checkpointId := by
  obtain ⟨o', ho', hfound⟩ := List.exists_of_findSome?_eq_some hholder
  obtain ⟨q, hq, hsame⟩ := Option.map_eq_some_iff.mp hfound
  cases hsame
  exact ⟨⟨ho', List.mem_of_find?_eq_some hq⟩, by simpa using List.find?_some hq⟩

theorem holder_of_live {p : MutablePin} (hp : Live a o p) :
    a.holder p.checkpointId = some (o, p) := by
  have hsome : (a.holder p.checkpointId).isSome := by
    rw [Authority.holder, List.findSome?_isSome_iff]
    refine ⟨o, hp.1, ?_⟩
    rw [Option.isSome_map, Authority.pinOf, List.find?_isSome]
    exact ⟨p, hp.2, by simp⟩
  obtain ⟨⟨o', q⟩, hholder⟩ := Option.isSome_iff_exists.mp hsome
  obtain ⟨hq, hid⟩ := holder_live hholder
  obtain ⟨rfl, rfl⟩ := h.live_eq hq hp hid
  exact hholder

omit h in
theorem release_cases (checkpointId : Str) (scope : Option PartialScope) :
    (a.release checkpointId scope).2 = a ∨ ∃ o pin, Live a o pin ∧
      (a.release checkpointId scope).2 = a.remove o pin := by
  unfold Authority.release
  split_ifs
  · exact .inl rfl
  · split
    · exact .inl rfl
    · rename_i o pin hholder
      split_ifs
      · exact .inl rfl
      · exact .inr ⟨o, pin, (holder_live hholder).1, rfl⟩

omit h in
theorem release_holder {checkpointId : Str} (hid : checkpointId ≠ [])
    (hholder : a.holder checkpointId = some (o, pin)) (scope : Option PartialScope) :
    (∃ e, a.release checkpointId scope = (.error e, a)) ∨
      a.release checkpointId scope = (.ok (), a.remove o pin) := by
  rw [Authority.release, if_neg hid, hholder]
  dsimp only
  split_ifs
  · exact .inl ⟨_, rfl⟩
  · exact .inr rfl

theorem Sound.release (checkpointId : Str) (scope : Option PartialScope) :
    Sound limits bounded (a.release checkpointId scope).2 := by
  rcases release_cases checkpointId scope with heq | ⟨o, pin, hpin, heq⟩
  · rwa [heq]
  · rw [heq]
    exact h.remove hpin

theorem release_live {p : MutablePin} (hp : Live a o p) :
    a.release p.checkpointId none = (.ok (), a.remove o p) := by
  rw [Authority.release, if_neg (h.named o p hp), holder_of_live h hp]
  rfl

/-! ## Expiry -/

theorem expire_cases (pin : MutablePin) :
    Sound limits bounded (a.expire pin) ∧ (a.expire pin).now = a.now ∧
      (a.expire pin).sessions = a.sessions ∧
      ∀ o p, Live (a.expire pin) o p → Live a o p ∧ (p = pin → a.now < p.expiresAt) := by
  unfold Authority.expire
  split_ifs with hexpired
  · have hremembered : Sound limits bounded { a with
        expiredCheckpointIds := rememberTombstone a.expiredCheckpointIds pin.checkpointId } :=
      h.same rfl rfl rfl rfl
    refine ⟨hremembered.release _ _, ?_⟩
    rcases release_cases (a := { a with
        expiredCheckpointIds := rememberTombstone a.expiredCheckpointIds pin.checkpointId })
        pin.checkpointId none with heq | ⟨o', q, hq, heq⟩
    · rw [heq]
      refine ⟨rfl, rfl, fun o p hp => ⟨hp, ?_⟩⟩
      rintro rfl
      -- a live pin is removed, so nothing would have stayed as it was
      have hgone := congrArg Authority.log
        ((congrArg Prod.snd (release_live hremembered hp)).symm.trans heq)
      simp [Authority.remove, Authority.update] at hgone
    · rw [heq]
      refine ⟨rfl, rfl, fun o p hp => ?_⟩
      obtain ⟨hold, hother⟩ := live_remove hremembered hp
      refine ⟨hold, ?_⟩
      rintro rfl
      have hsame := (congrArg Prod.snd (release_live hremembered hold)).symm.trans heq
      rw [← hsame] at hp
      exact absurd rfl ((live_remove hremembered hp).2 rfl)
  · refine ⟨h, rfl, rfl, fun o p hp => ⟨hp, ?_⟩⟩
    rintro rfl
    omega

theorem expireAll_spec (pins : List MutablePin) :
    Sound limits bounded (pins.foldl expire a) ∧ (pins.foldl expire a).now = a.now ∧
      (pins.foldl expire a).sessions = a.sessions ∧
      ∀ o p, Live (pins.foldl expire a) o p → Live a o p ∧ (p ∈ pins → a.now < p.expiresAt) := by
  induction pins generalizing a with
  | nil => exact ⟨h, rfl, rfl, fun o p hp => ⟨hp, by simp⟩⟩
  | cons pin pins ih =>
    obtain ⟨hsound, hnow, hsessions, hlive⟩ := expire_cases h pin
    obtain ⟨hsound', hnow', hsessions', hlive'⟩ := ih hsound
    rw [List.foldl_cons]
    refine ⟨hsound', hnow'.trans hnow, hsessions'.trans hsessions, fun o p hp => ?_⟩
    obtain ⟨hmid, hlater⟩ := hlive' o p hp
    obtain ⟨hold, hfirst⟩ := hlive o p hmid
    refine ⟨hold, fun hmem => ?_⟩
    rcases List.mem_cons.mp hmem with rfl | hmem
    · exact hfirst rfl
    · rw [← hnow]
      exact hlater hmem

/-- After a cleanup of its session, a live pin has not expired. -/
theorem cleanup_spec (o : ℕ) :
    Sound limits bounded (a.cleanupExpiredSession o) ∧ (a.cleanupExpiredSession o).now = a.now ∧
      (a.cleanupExpiredSession o).sessions = a.sessions ∧
      ∀ p, Live (a.cleanupExpiredSession o) o p → a.now < p.expiresAt := by
  obtain ⟨hsound, hnow, hsessions, hlive⟩ := expireAll_spec h (a.pinsOf o)
  refine ⟨hsound, hnow, hsessions, fun p hp => ?_⟩
  obtain ⟨hold, hlater⟩ := hlive o p hp
  exact hlater hold.2

theorem Sound.cleanupExpired : Sound limits bounded a.cleanupExpired := by
  have hall : ∀ sessions : List ℕ, ∀ c : Authority, Sound limits bounded c →
      Sound limits bounded (sessions.foldl cleanupExpiredSession c) := by
    intro sessions
    induction sessions with
    | nil => exact fun c hc => hc
    | cons o sessions ih => exact fun c hc => ih _ (cleanup_spec hc o).1
  exact hall a.sessions a h

/-! ## Binding and fetching -/

omit h in
theorem requirePin_cases (checkpointId : Str) (scope : Scope) (requireBound ignoreAttachment : Bool) :
    (∃ e, a.requirePin checkpointId scope requireBound ignoreAttachment = (.error e, a)) ∨
    ∃ o, a.get scope.identity = some o ∧
      a.requirePin checkpointId scope requireBound ignoreAttachment =
        (((a.cleanupExpiredSession o).checkPin o checkpointId scope requireBound
          ignoreAttachment).map fun pin => (o, pin), a.cleanupExpiredSession o) := by
  unfold Authority.requirePin
  split
  · rename_i e he
    exact .inl ⟨e, rfl⟩
  · rename_i o ho
    obtain ⟨_, -, hrest⟩ := bind_ok.mp ho
    obtain ⟨_, -, hsession⟩ := bind_ok.mp hrest
    obtain ⟨_, -, hget⟩ := bind_ok.mp hsession
    exact .inr ⟨o, demand_ok.mp hget, rfl⟩

omit h in
theorem get_mem {identity : TerminalIdentity} (hget : a.get identity = some o) :
    o ∈ a.sessions := List.mem_of_find?_eq_some hget

omit h in
theorem checkPin_ok {checkpointId : Str} {scope : Scope} {requireBound ignoreAttachment : Bool}
    (hpin : a.checkPin o checkpointId scope requireBound ignoreAttachment = .ok pin) :
    a.pinOf o checkpointId = some pin ∧
      matchesScope pin scope.toPartial requireBound ignoreAttachment = true := by
  unfold Authority.checkPin at hpin
  split at hpin
  · split_ifs at hpin
  · rename_i q hq
    split_ifs at hpin with hconsumed hscope
    cases hpin
    exact ⟨hq, hscope⟩

structure Required (limits : Limits) (bounded : Bool) (a : Authority) (o : ℕ) (pin : MutablePin)
    (checkpointId : Str) (scope : Scope) : Prop where
  sound : Sound limits bounded a
  live : Live a o pin
  id : pin.checkpointId = checkpointId
  identity : pin.identity = scope.identity
  client : pin.clientId = scope.clientId
  unexpired : a.now < pin.expiresAt

omit h in
theorem matchesScope_full {scope : Scope} {requireBound ignoreAttachment : Bool}
    (hscope : matchesScope pin scope.toPartial requireBound ignoreAttachment = true) :
    pin.identity = scope.identity ∧ pin.clientId = scope.clientId ∧
      (ignoreAttachment = false → pin.attachmentId = some scope.attachmentId) := by
  unfold matchesScope at hscope
  split_ifs at hscope with hother
  · simp only [differs, Scope.toPartial, Option.any_some, decide_not, Bool.or_eq_true,
      Bool.not_eq_true', decide_eq_false_iff_not, not_or, not_not] at hother
    obtain ⟨⟨⟨hserver, hproject⟩, hsession⟩, hclient⟩ := hother
    refine ⟨?_, hclient, fun hattachment => ?_⟩
    · cases hp : pin.identity
      cases hs : scope.identity
      rw [hp, hs] at hserver hproject hsession
      dsimp only at hserver hproject hsession
      rw [hserver, hproject, hsession]
    · rw [Bool.and_eq_true, hattachment] at hscope
      have hsame := hscope.2
      simp only [Scope.toPartial, Option.isNone_some, Bool.false_or] at hsame
      exact of_decide_eq_true hsame

theorem requirePin_ok {checkpointId : Str} {scope : Scope} {requireBound ignoreAttachment : Bool}
    (hrequired : a.requirePin checkpointId scope requireBound ignoreAttachment = (.ok (o, pin), b)) :
    Required limits bounded b o pin checkpointId scope ∧
      (ignoreAttachment = false → pin.attachmentId = some scope.attachmentId) := by
  rcases requirePin_cases checkpointId scope requireBound ignoreAttachment (a := a) with
    ⟨e, he⟩ | ⟨o', hget, heq⟩
  · rw [he] at hrequired
    cases hrequired
  · rw [heq] at hrequired
    obtain ⟨hanswer, rfl⟩ := Prod.mk.inj hrequired
    obtain ⟨hsound, hnow, hsessions, hlive⟩ := cleanup_spec h o'
    cases hcheck : (a.cleanupExpiredSession o').checkPin o' checkpointId scope requireBound
        ignoreAttachment with
    | error e =>
      rw [hcheck] at hanswer
      cases hanswer
    | ok q =>
      rw [hcheck] at hanswer
      obtain ⟨rfl, rfl⟩ := Prod.mk.inj (Except.ok.inj hanswer)
      obtain ⟨hpin, hscope⟩ := checkPin_ok hcheck
      obtain ⟨hidentity, hclient, hattachment⟩ := matchesScope_full hscope
      have hmem : Live (a.cleanupExpiredSession o') o' q :=
        ⟨by rw [hsessions]; exact get_mem hget, List.mem_of_find?_eq_some hpin⟩
      refine ⟨⟨hsound, hmem, by simpa using List.find?_some hpin, hidentity, hclient, ?_⟩,
        hattachment⟩
      rw [hnow]
      exact hlive q hmem

theorem requirePin_error {checkpointId : Str} {scope : Scope}
    {requireBound ignoreAttachment : Bool} {e : CheckpointError}
    (hrequired : a.requirePin checkpointId scope requireBound ignoreAttachment = (.error e, b)) :
    Sound limits bounded b := by
  rcases requirePin_cases checkpointId scope requireBound ignoreAttachment (a := a) with
    ⟨e', he⟩ | ⟨o', hget, heq⟩
  · rw [he] at hrequired
    cases hrequired
    exact h
  · rw [heq] at hrequired
    obtain ⟨-, rfl⟩ := Prod.mk.inj hrequired
    exact (cleanup_spec h o').1

theorem live_setPin {checkpointId : Str} {f : MutablePin → MutablePin} {p : MutablePin}
    (hp : Live (a.setPin o checkpointId f) o' p) : ∃ q, Live a o' q ∧
      p = if o = o' ∧ q.checkpointId = checkpointId then f q else q := by
  obtain ⟨hlisted, hmem⟩ := hp
  by_cases ho : o = o'
  · subst ho
    obtain ⟨s, hs, -⟩ := h.sessions o hlisted
    have hs' := held_self (a := a) (o := o) fun s : PinSession =>
      { s with pins := s.pins.map fun pin => if pin.checkpointId = checkpointId then f pin else pin }
    rw [hs] at hs'
    rw [Authority.setPin, pinsOf_held hs'] at hmem
    obtain ⟨q, hq, rfl⟩ := List.mem_map.mp hmem
    refine ⟨q, ⟨hlisted, by rwa [pinsOf_held hs]⟩, ?_⟩
    simp
  · rw [Authority.setPin, pinsOf_update _ ho] at hmem
    exact ⟨p, ⟨hlisted, hmem⟩, by rw [if_neg fun hboth => ho hboth.1]⟩

theorem setPin_live {f : MutablePin → MutablePin} (hp : Live a o pin) :
    Live (a.setPin o pin.checkpointId f) o (f pin) := by
  obtain ⟨s, hs, -⟩ := h.sessions o hp.1
  have hs' := held_self (a := a) (o := o) fun s : PinSession =>
    { s with pins := s.pins.map fun q => if q.checkpointId = pin.checkpointId then f q else q }
  rw [hs] at hs'
  have hmem := hp.2
  rw [pinsOf_held hs] at hmem
  refine ⟨hp.1, ?_⟩
  rw [Authority.setPin, pinsOf_held hs']
  exact List.mem_map.mpr ⟨pin, hmem, if_pos rfl⟩

theorem Sound.edit {f : MutablePin → MutablePin} (events : List PinEvent) (hpin : Live a o pin)
    (hid : ∀ p, (f p).checkpointId = p.checkpointId) (hserial : ∀ p, (f p).serial = p.serial)
    (hsize : ∀ p, (f p).byteLength = p.byteLength)
    (hheld : b.held = (a.setPin o pin.checkpointId f).held) (hlist : b.sessions = a.sessions)
    (hminted : b.minted = a.minted) (hlog : b.log = a.log ++ events)
    (hevents : ∀ event ∈ events, event.serial = pin.serial) (hlawful : Lawful b.log)
    (htracked : Tracked (a.log ++ events) (f pin)) : Sound limits bounded b := by
  have hlive : ∀ o' p, Live b o' p → ∃ q, Live a o' q ∧
      p = if o = o' ∧ q.checkpointId = pin.checkpointId then f q else q := by
    intro o' p hp
    refine live_setPin h (p := p) ⟨?_, ?_⟩
    · change o' ∈ a.sessions
      rw [← hlist]
      exact hp.1
    · have hmem := hp.2
      rwa [Authority.pinsOf, hheld] at hmem
  have hname : ∀ o' q, (if o = o' ∧ q.checkpointId = pin.checkpointId then f q else q).checkpointId =
      q.checkpointId := by
    intro o' q
    split_ifs
    · exact hid q
    · rfl
  have hnumber : ∀ o' q, (if o = o' ∧ q.checkpointId = pin.checkpointId then f q else q).serial =
      q.serial := by
    intro o' q
    split_ifs
    · exact hserial q
    · rfl
  refine ⟨hlist ▸ h.listed, ?_, ?_, ?_, ?_, ?_, ?_, hlawful⟩
  · intro o' ho'
    rw [hlist] at ho'
    obtain ⟨s, hs, hsound⟩ := h.sessions o' ho'
    rw [hheld, Authority.setPin, held_update]
    split_ifs with ho
    · rw [hs]
      refine ⟨_, rfl, hsound.mapped (fun p => ?_) fun p => ?_⟩
      · split_ifs
        · exact hid p
        · rfl
      · split_ifs
        · exact hsize p
        · rfl
    · exact ⟨s, hs, hsound⟩
  · intro o₁ p₁ o₂ p₂ h₁ h₂ hsame
    obtain ⟨q₁, hq₁, rfl⟩ := hlive o₁ p₁ h₁
    obtain ⟨q₂, hq₂, rfl⟩ := hlive o₂ p₂ h₂
    rw [hname, hname] at hsame
    exact h.ids o₁ q₁ o₂ q₂ hq₁ hq₂ hsame
  · intro o₁ p₁ o₂ p₂ h₁ h₂ hsame
    obtain ⟨q₁, hq₁, rfl⟩ := hlive o₁ p₁ h₁
    obtain ⟨q₂, hq₂, rfl⟩ := hlive o₂ p₂ h₂
    rw [hnumber, hnumber] at hsame
    obtain ⟨rfl, rfl⟩ := h.serials o₁ q₁ o₂ q₂ hq₁ hq₂ hsame
    exact ⟨rfl, rfl⟩
  · intro o' p hp
    obtain ⟨q, hq, rfl⟩ := hlive o' p hp
    rw [hname]
    exact h.named o' q hq
  · intro o' p hp
    obtain ⟨q, hq, rfl⟩ := hlive o' p hp
    rw [hnumber, hminted, hlog]
    refine ⟨?_, (h.tracked o' q hq).2⟩
    split_ifs with hmine
    · obtain ⟨rfl, hsame⟩ := hmine
      obtain ⟨-, rfl⟩ := h.live_eq hq hpin hsame
      exact htracked
    · refine (h.tracked o' q hq).1.append fun event hevent => ?_
      rw [hevents event hevent]
      exact h.apart hpin hq fun ho hsame => hmine ⟨ho, hsame⟩
  · intro event hevent
    rw [hlog] at hevent
    rw [hminted]
    rcases List.mem_append.mp hevent with hold | hnew
    · exact h.recorded event hold
    · rw [hevents event hnew]
      exact (h.tracked o pin hpin).2

theorem Sound.bind (checkpointId : Str) (scope : Scope) :
    Sound limits bounded (a.bind checkpointId scope).2 := by
  unfold Authority.bind
  split
  · rename_i e b hrequired
    exact requirePin_error h hrequired
  · rename_i o pin b hrequired
    obtain ⟨hr, -⟩ := requirePin_ok h hrequired
    split_ifs with hother
    · exact hr.sound
    · obtain ⟨htracked, -⟩ := hr.sound.tracked o pin hr.live
      have hattached : ∀ other, pin.attachmentId = some other → other = scope.attachmentId := by
        intro other hat
        rw [hat] at hother
        simpa using hother
      have hscope : scope = ⟨pin.identity, pin.clientId, scope.attachmentId⟩ := by
        rw [hr.identity, hr.client]
      refine hr.sound.edit (f := fun pin => { pin with attachmentId := some scope.attachmentId })
        [.bound pin.serial scope] hr.live (fun _ => rfl) (fun _ => rfl) (fun _ => rfl)
        (by rw [hr.id]) rfl rfl rfl (by simp [PinEvent.serial])
        (hr.sound.lawful.concat trivial) ?_
      refine ⟨?_, ?_, ?_, ?_, ?_⟩
      · obtain ⟨q, hq, hrest⟩ := htracked.minted
        exact ⟨q, List.mem_append_left _ hq, hrest⟩
      · simpa using htracked.kept
      · intro other now
        simpa using htracked.whole other now
      · intro other hbound
        rcases List.mem_append.mp hbound with hold | hnew
        · obtain ⟨hidentity, hclient, hat⟩ := htracked.only other hold
          exact ⟨hidentity, hclient, by rw [hattached _ hat]⟩
        · have hsame : PinEvent.bound pin.serial other = .bound pin.serial scope :=
            List.mem_singleton.mp hnew
          cases hsame
          exact ⟨hr.identity.symm, hr.client.symm, rfl⟩
      · intro attachmentId hat
        obtain rfl := Option.some.inj hat
        refine List.mem_append_right _ (List.mem_singleton.mpr ?_)
        dsimp only
        rw [← hscope]

theorem Sound.consume {checkpointId : Str} {scope : Scope}
    (hr : Required limits bounded a o pin checkpointId scope)
    (hattachment : pin.attachmentId = some scope.attachmentId) :
    Sound limits bounded (a.consume o pin scope).2 := by
  obtain ⟨htracked, hserial⟩ := h.tracked o pin hr.live
  have hscope : (⟨pin.identity, pin.clientId, scope.attachmentId⟩ : Scope) = scope := by
    rw [hr.identity, hr.client]
  have hpermitted : Handout a.log pin.serial scope a.now := by
    refine ⟨?_, ?_, ?_, htracked.kept, htracked.whole⟩
    · obtain ⟨q, hq, hsame, hexpires, hidentity, hclient⟩ := htracked.minted
      exact ⟨q, hq, hsame, by rw [hexpires]; exact hr.unexpired, by rw [hidentity, hr.identity],
        by rw [hclient, hr.client]⟩
    · have hbound := htracked.bound scope.attachmentId hattachment
      rwa [hscope] at hbound
    · intro other hother
      obtain ⟨hidentity, hclient, hat⟩ := htracked.only other hother
      rw [hattachment] at hat
      rw [← hscope, ← hidentity, ← hclient, Option.some.inj hat]
  let used := fun pin : MutablePin => { pin with consumed := true }
  let remembered := { a.setPin o pin.checkpointId used with
    consumedCheckpointIds := rememberTombstone a.consumedCheckpointIds pin.checkpointId }
  have hremembered : Sound limits bounded remembered := by
    refine h.edit (f := used) [] hr.live (fun _ => rfl) (fun _ => rfl) (fun _ => rfl) rfl rfl rfl
      (List.append_nil _).symm (by simp) h.lawful ?_
    rw [List.append_nil]
    exact ⟨htracked.minted, htracked.kept, htracked.whole, htracked.only, htracked.bound⟩
  have hlive : Live remembered o (used pin) := setPin_live h hr.live
  have hholder : remembered.holder pin.checkpointId = some (o, used pin) :=
    holder_of_live hremembered hlive
  have hrelease := release_holder (a := remembered) (h.named o pin hr.live) hholder
    (some scope.toPartial)
  unfold Authority.consume
  dsimp only
  rcases hrelease with ⟨e, hrelease⟩ | hrelease
  · rw [hrelease]
    exact hremembered
  · rw [hrelease]
    have hremoved := hremembered.remove hlive
    have hlawful : Lawful (a.log ++ [.handed pin.serial scope a.now, .ended pin.serial]) := by
      have honce : Lawful (a.log ++ [.handed pin.serial scope a.now]) :=
        h.lawful.concat hpermitted
      have htwice : Lawful (a.log ++ [.handed pin.serial scope a.now] ++ [.ended pin.serial]) :=
        honce.concat trivial
      rwa [List.append_assoc] at htwice
    refine hremembered.shrink [.handed pin.serial scope a.now, .ended pin.serial]
      hremoved.listed hremoved.sessions ?_ rfl rfl ?_ hlawful
    · intro o' p hp
      obtain ⟨hold, hother⟩ : Live remembered o' p ∧
          (o = o' → p.checkpointId ≠ (used pin).checkpointId) := live_remove hremembered hp
      have hapart : pin.serial ≠ p.serial := hremembered.apart hlive hold hother
      refine ⟨hold, fun event hevent => ?_⟩
      rcases List.mem_pair.mp hevent with rfl | rfl
      · exact hapart
      · exact hapart
    · intro event hevent
      rcases List.mem_pair.mp hevent with rfl | rfl
      · exact hserial
      · exact hserial

theorem Sound.fetch (checkpointId : Str) (scope : Scope) :
    Sound limits bounded (a.fetch checkpointId scope).2 := by
  unfold Authority.fetch
  split
  · rename_i e b hrequired
    exact requirePin_error h hrequired
  · rename_i o pin b hrequired
    obtain ⟨hr, hattachment⟩ := requirePin_ok h hrequired
    exact hr.sound.consume hr (hattachment rfl)

theorem Sound.read (checkpointId : Str) (scope : Scope) :
    Sound limits bounded (a.read checkpointId scope).2 := by
  unfold Authority.read
  split
  · rename_i e b hrequired
    exact requirePin_error h hrequired
  · rename_i o pin b hrequired
    obtain ⟨hr, -⟩ := requirePin_ok h hrequired
    exact hr.sound

/-! ## Releasing many pins -/

theorem Sound.releaseEach (scope : Option PartialScope) (pins : List MutablePin) :
    Sound limits bounded (a.releaseEach scope pins).2 := by
  induction pins generalizing a with
  | nil => exact h
  | cons pin pins ih =>
    have hone := h.release pin.checkpointId scope
    unfold Authority.releaseEach
    split
    · rename_i e b hreleased
      rw [hreleased] at hone
      exact hone
    · rename_i b hreleased
      rw [hreleased] at hone
      exact ih hone

theorem Sound.eachSession {f : Authority → ℕ → Answer Unit}
    (hf : ∀ a o, Sound limits bounded a → Sound limits bounded (f a o).2) (sessions : List ℕ) :
    Sound limits bounded (eachSession f a sessions).2 := by
  induction sessions generalizing a with
  | nil => exact h
  | cons o sessions ih =>
    have hone := hf a o h
    unfold Authority.eachSession
    split
    · rename_i e b hanswer
      rw [hanswer] at hone
      exact hone
    · rename_i b hanswer
      rw [hanswer] at hone
      exact ih hone

theorem Sound.releaseAttachment (scope : Scope) :
    Sound limits bounded (a.releaseAttachment scope).2 := by
  refine h.eachSession (fun c o hc => ?_) _
  unfold releaseAttachmentOf
  split_ifs
  · exact hc
  · exact hc.releaseEach _ _

theorem Sound.releaseClient (clientId : Str) :
    Sound limits bounded (a.releaseClient clientId).2 :=
  h.eachSession (fun _ _ hc => hc.releaseEach _ _) _

theorem Sound.cleared (ho : o ∈ a.sessions) (hlisted : b.sessions.Nodup)
    (hsub : ∀ o' ∈ b.sessions, o' ∈ a.sessions)
    (hheld : ∀ o', o ≠ o' → b.held[o']? = a.held[o']?)
    (hsession : o ∈ b.sessions → ∃ s, b.held[o]? = some s ∧ SessionSound limits bounded s)
    (hpins : o ∈ b.sessions → b.pinsOf o = []) (hminted : b.minted = a.minted)
    (hlog : b.log = a.log ++ (a.pinsOf o).map fun pin => .ended pin.serial) :
    Sound limits bounded b := by
  have hserials : ((a.pinsOf o).map fun pin => PinEvent.ended pin.serial) =
      ((a.pinsOf o).map (·.serial)).map .ended := by
    rw [List.map_map]
    rfl
  refine h.shrink _ hlisted ?_ ?_ hminted hlog ?_ ?_
  · intro o' ho'
    by_cases hsame : o = o'
    · subst hsame
      exact hsession ho'
    · rw [hheld o' hsame]
      exact h.sessions o' (hsub o' ho')
  · intro o' p hp
    have hne : o ≠ o' := by
      rintro rfl
      have hmem := hp.2
      rw [hpins hp.1] at hmem
      cases hmem
    have hold : Live a o' p := by
      refine ⟨hsub o' hp.1, ?_⟩
      have hmem := hp.2
      rwa [Authority.pinsOf, hheld o' hne] at hmem
    refine ⟨hold, fun event hevent hsame => ?_⟩
    obtain ⟨pin, hpin, rfl⟩ := List.mem_map.mp hevent
    exact hne (h.serials o pin o' p ⟨ho, hpin⟩ hold hsame).1
  · intro event hevent
    obtain ⟨pin, hpin, rfl⟩ := List.mem_map.mp hevent
    exact (h.tracked o pin ⟨ho, hpin⟩).2
  · rw [hlog, hserials]
    exact h.lawful.ended _

theorem Sound.closeSession (identity : TerminalIdentity) :
    Sound limits bounded (a.closeSession identity) := by
  unfold Authority.closeSession
  split
  · exact h
  · rename_i o hget
    have hgone : o ∉ a.sessions.erase o := h.listed.not_mem_erase
    refine h.cleared (get_mem hget) (h.listed.erase o) (fun o' ho' => List.mem_of_mem_erase ho') ?_
      (fun ho => absurd ho hgone) (fun ho => absurd ho hgone) rfl rfl
    intro o' hne
    exact (held_update _).trans (if_neg hne)

theorem Sound.rehomeSession (retired identity : TerminalIdentity) :
    Sound limits bounded (a.rehomeSession retired identity).2 := by
  unfold Authority.rehomeSession
  split
  · exact h
  · split
    · exact h
    · rename_i o hget
      split_ifs
      · exact h
      · have ho := get_mem hget
        obtain ⟨s, hs, hsound⟩ := h.sessions o ho
        have hmoved : ((a.clearPins o).update o fun s =>
            { s with pinnedBytes := 0, identity := identity }).held[o]? =
              some ⟨identity, [], 0⟩ := by
          rw [held_update, if_pos rfl]
          change ((a.update o _).held[o]?).map _ = _
          rw [held_update, if_pos rfl, hs]
          rfl
        have hlisted : (a.sessions.erase o ++ [o]).Nodup := by
          refine (h.listed.erase o).append (List.nodup_singleton o) ?_
          exact List.disjoint_singleton.mpr h.listed.not_mem_erase
        refine h.cleared ho hlisted ?_ ?_ ?_ ?_ rfl rfl
        · intro o' ho'
          rcases List.mem_append.mp ho' with hold | hsame
          · exact List.mem_of_mem_erase hold
          · rw [List.mem_singleton.mp hsame]
            exact ho
        · intro o' hne
          change ((a.clearPins o).update o _).held[o']? = _
          rw [held_update, if_neg hne]
          exact (held_update _).trans (if_neg hne)
        · intro _
          refine ⟨_, hmoved, List.nodup_nil, rfl, ?_, fun _ => Nat.zero_le _⟩
          exact Int.natCast_nonneg _
        · intro _
          exact pinsOf_held hmoved

theorem Sound.close : Sound limits bounded a.close := by
  have hall : ∀ sessions : List ℕ, ∀ c : Authority, Sound limits bounded c →
      Sound limits bounded
        (sessions.foldl (fun c o => (c.identityOf o).elim c c.closeSession) c) := by
    intro sessions
    induction sessions with
    | nil => exact fun c hc => hc
    | cons o sessions ih =>
      intro c hc
      refine ih _ ?_
      dsimp only
      rcases c.identityOf o with _ | identity
      · exact hc
      · exact hc.closeSession identity
  exact hall a.sessions a h

/-! ## Making a pin -/

theorem Sound.createSession (identity : TerminalIdentity) :
    Sound limits bounded (a.createSession limits identity).2 := by
  unfold Authority.createSession
  split
  · exact h
  · split_ifs
    · exact h
    · exact h
    · have hlast : ∀ o ∈ a.sessions, o < a.held.length := by
        intro o ho
        obtain ⟨s, hs, -⟩ := h.sessions o ho
        exact (List.getElem?_eq_some_iff.mp hs).1
      have hnew : (a.held ++ [⟨identity, [], 0⟩])[a.held.length]? =
          some ⟨identity, [], 0⟩ := by
        simp
      have hlisted : (a.sessions ++ [a.held.length]).Nodup := by
        refine h.listed.append (List.nodup_singleton _) (List.disjoint_singleton.mpr ?_)
        intro hmem
        exact absurd (hlast _ hmem) (lt_irrefl _)
      refine h.shrink [] hlisted ?_ ?_ rfl (List.append_nil _).symm (by simp) h.lawful
      · intro o ho
        rcases List.mem_append.mp ho with hold | hsame
        · obtain ⟨s, hs, hsound⟩ := h.sessions o hold
          refine ⟨s, ?_, hsound⟩
          dsimp only
          rw [List.getElem?_append_left (hlast o hold)]
          exact hs
        · rw [List.mem_singleton.mp hsame]
          exact ⟨_, hnew, List.nodup_nil, rfl, Int.natCast_nonneg _, fun _ => Nat.zero_le _⟩
      · intro o p hp
        obtain ⟨hmem, hpin⟩ := hp
        rcases List.mem_append.mp hmem with hold | hsame
        · refine ⟨⟨hold, ?_⟩, by simp⟩
          rw [Authority.pinsOf] at hpin
          dsimp only at hpin
          rwa [List.getElem?_append_left (hlast o hold)] at hpin
        · rw [List.mem_singleton.mp hsame, pinsOf_held hnew] at hpin
          cases hpin

theorem Sound.prepare (identity : TerminalIdentity) (clientId : Str) (unavailable : Bool) :
    Sound limits bounded (a.prepare limits identity clientId unavailable).2 := by
  unfold Authority.prepare
  split
  · exact h
  · rename_i o ho
    have hcleaned := (cleanup_spec h o).1
    dsimp only
    split_ifs
    · exact hcleaned
    · exact hcleaned
    · exact hcleaned.same rfl rfl rfl rfl

omit h in
theorem nextCheckpointId_spec (generated : Option Str) :
    ((a.nextCheckpointId generated).2 = a ∨
      (a.nextCheckpointId generated).2 = { a with checkpointCounter := a.checkpointCounter + 1 }) ∧
    ∀ id, (a.nextCheckpointId generated).1 = .ok id → id ≠ [] ∧ a.holder id = none := by
  have hcounted : ∀ counted : Authority, (∀ id, generated = some id → counted = a) →
      (generated = none → counted = { a with checkpointCounter := a.checkpointCounter + 1 }) →
      counted = a ∨ counted = { a with checkpointCounter := a.checkpointCounter + 1 } := by
    intro counted hgiven hnone
    rcases generated with _ | id
    · exact .inr (hnone rfl)
    · exact .inl (hgiven id rfl)
  unfold Authority.nextCheckpointId
  dsimp only
  split
  · exact ⟨hcounted _ (by rintro id rfl; rfl) (by rintro rfl; rfl), by rintro id ⟨⟩⟩
  · rename_i hvalid
    split_ifs with hheld
    · exact ⟨hcounted _ (by rintro id rfl; rfl) (by rintro rfl; rfl), by rintro id ⟨⟩⟩
    · refine ⟨hcounted _ (by rintro id rfl; rfl) (by rintro rfl; rfl), ?_⟩
      rintro id ⟨⟩
      refine ⟨?_, Option.not_isSome_iff_eq_none.mp hheld⟩
      intro hempty
      rw [hempty] at hvalid
      simp [validateId, refuseIf, idPattern] at hvalid

theorem Sound.add {s : PinSession} (hs : a.held[o]? = some s) (hid : pin.checkpointId ≠ [])
    (hfree : a.holder pin.checkpointId = none) (hserial : pin.serial = a.minted)
    (hfits : s.pinnedBytes + pin.byteLength ≤ limits.maxPinnedBytesPerSession)
    (hunbound : pin.attachmentId = none)
    (hroom : bounded = true → o ∈ a.sessions → s.pins.length < limits.maxPinsPerSession) :
    Sound limits bounded (a.add o pin) := by
  have hnew : ∀ o' p, Live a o' p → p.checkpointId ≠ pin.checkpointId := by
    intro o' p hp hsame
    have hheld := holder_of_live h hp
    rw [hsame, hfree] at hheld
    cases hheld
  have hheld : ∀ o', (a.add o pin).held[o']? = if o = o' then a.held[o']?.map fun s =>
      { s with pins := s.pins ++ [pin], pinnedBytes := s.pinnedBytes + pin.byteLength }
      else a.held[o']? := fun o' => held_update _
  have hmine : (a.add o pin).pinsOf o = s.pins ++ [pin] := by
    have hs' := hheld o
    rw [if_pos rfl, hs] at hs'
    exact pinsOf_held hs'
  have hlive : ∀ o' p, Live (a.add o pin) o' p → Live a o' p ∨ (o' = o ∧ p = pin) := by
    intro o' p hp
    by_cases ho : o = o'
    · subst ho
      have hmem := hp.2
      rw [hmine] at hmem
      rcases List.mem_append.mp hmem with hold | hsame
      · exact .inl ⟨hp.1, by rwa [pinsOf_held hs]⟩
      · exact .inr ⟨rfl, List.mem_singleton.mp hsame⟩
    · refine .inl ⟨hp.1, ?_⟩
      have hmem := hp.2
      rwa [Authority.pinsOf, hheld, if_neg ho] at hmem
  have hbelow : ∀ o' p, Live a o' p → p.serial ≠ pin.serial := by
    intro o' p hp hsame
    have hless := (h.tracked o' p hp).2
    omega
  have hfresh : ∀ event ∈ a.log, event.serial ≠ pin.serial := by
    intro event hevent hsame
    have hless := h.recorded event hevent
    omega
  refine ⟨h.listed, ?_, ?_, ?_, ?_, ?_, ?_, h.lawful.concat trivial⟩
  · intro o' ho'
    obtain ⟨s', hs', hsound⟩ := h.sessions o' ho'
    rw [hheld]
    split_ifs with ho
    · subst ho
      obtain rfl := Option.some.inj (hs.symm.trans hs')
      rw [hs]
      refine ⟨_, rfl, ?_, ?_, hfits, fun hbounded => ?_⟩
      · dsimp only
        rw [List.map_append, List.map_singleton]
        refine hsound.ids.append (List.nodup_singleton _) (List.disjoint_singleton.mpr ?_)
        intro hmem
        obtain ⟨p, hp, hsame⟩ := List.mem_map.mp hmem
        exact hnew o p ⟨ho', by rwa [pinsOf_held hs]⟩ hsame
      · dsimp only
        have hpinned := hsound.pinned
        rw [List.map_append, List.sum_append, List.map_singleton, List.sum_singleton, hpinned]
        push_cast
        rfl
      · dsimp only
        rw [List.length_append, List.length_singleton]
        exact hroom hbounded ho'
    · exact ⟨s', hs', hsound⟩
  · intro o₁ p₁ o₂ p₂ h₁ h₂ hsame
    rcases hlive o₁ p₁ h₁ with hold₁ | ⟨rfl, rfl⟩
    · rcases hlive o₂ p₂ h₂ with hold₂ | ⟨rfl, rfl⟩
      · exact h.ids o₁ p₁ o₂ p₂ hold₁ hold₂ hsame
      · exact absurd hsame (hnew o₁ p₁ hold₁)
    · rcases hlive o₂ p₂ h₂ with hold₂ | ⟨rfl, rfl⟩
      · exact absurd hsame.symm (hnew o₂ p₂ hold₂)
      · rfl
  · intro o₁ p₁ o₂ p₂ h₁ h₂ hsame
    rcases hlive o₁ p₁ h₁ with hold₁ | ⟨rfl, rfl⟩
    · rcases hlive o₂ p₂ h₂ with hold₂ | ⟨rfl, rfl⟩
      · exact h.serials o₁ p₁ o₂ p₂ hold₁ hold₂ hsame
      · exact absurd hsame (hbelow o₁ p₁ hold₁)
    · rcases hlive o₂ p₂ h₂ with hold₂ | ⟨rfl, rfl⟩
      · exact absurd hsame.symm (hbelow o₂ p₂ hold₂)
      · exact ⟨rfl, rfl⟩
  · intro o' p hp
    rcases hlive o' p hp with hold | ⟨-, rfl⟩
    · exact h.named o' p hold
    · exact hid
  · intro o' p hp
    change Tracked (a.log ++ [.minted pin]) p ∧ p.serial < a.minted + 1
    rcases hlive o' p hp with hold | ⟨-, rfl⟩
    · obtain ⟨htracked, hless⟩ := h.tracked o' p hold
      refine ⟨htracked.append fun event hevent => ?_, by omega⟩
      rw [List.mem_singleton.mp hevent]
      exact (hbelow o' p hold).symm
    · refine ⟨⟨⟨p, by simp, rfl, rfl, rfl, rfl⟩, ?_, ?_, ?_, ?_⟩, by omega⟩
      · intro hended
        exact hfresh _ (by simpa using hended) rfl
      · intro scope now hhanded
        exact hfresh _ (by simpa using hhanded) rfl
      · intro scope hbound
        exact absurd rfl (hfresh (.bound p.serial scope) (by simpa using hbound))
      · intro attachmentId hat
        rw [hunbound] at hat
        cases hat
  · intro event hevent
    change event.serial < a.minted + 1
    rcases List.mem_append.mp hevent with hold | hsame
    · exact (h.recorded event hold).trans (Nat.lt_succ_self _)
    · rw [List.mem_singleton.mp hsame]
      change pin.serial < _
      omega

def RoomFor (limits : Limits) (a : Authority) (o : ℕ) (captured : Captured) : Prop :=
  ∀ s, a.held[o]? = some s →
    s.pinnedBytes + (captured.state.length + captured.tailBytes : ℕ) ≤
      limits.maxPinnedBytesPerSession → s.pins.length < limits.maxPinsPerSession

theorem Sound.mint (clientId : Str) (captured : Captured) (generated : Option Str)
    (hroom : bounded = true → o ∈ a.sessions → RoomFor limits a o captured) :
    Sound limits bounded (a.mint limits o clientId captured generated).2 := by
  obtain ⟨hnext, hfree⟩ := nextCheckpointId_spec (a := a) generated
  unfold Authority.mint
  split
  · exact h
  · rename_i s hs
    dsimp only
    split_ifs with hsize hfits
    · exact h
    · exact h
    · have hcounted : Sound limits bounded (a.nextCheckpointId generated).2 := by
        rcases hnext with hsame | hsame
        · rwa [hsame]
        · rw [hsame]
          exact h.same rfl rfl rfl rfl
      split
      · rename_i e b hanswer
        rwa [hanswer] at hcounted
      · rename_i id b hanswer
        rw [hanswer] at hcounted hnext hfree
        obtain ⟨hid, hholder⟩ := hfree id rfl
        have hkept : b.held = a.held ∧ b.sessions = a.sessions ∧ b.holder id = a.holder id := by
          rcases hnext with hsame | hsame
          · have hb : b = a := hsame
            rw [hb]
            exact ⟨rfl, rfl, rfl⟩
          · have hb : b = { a with checkpointCounter := a.checkpointCounter + 1 } := hsame
            rw [hb]
            exact ⟨rfl, rfl, rfl⟩
        obtain ⟨hheld, hsessions, hsame⟩ := hkept
        split_ifs
        · exact hcounted
        · refine hcounted.add (by rw [hheld, hs]) hid (hsame.trans hholder) rfl (not_lt.mp hfits)
            rfl fun hbounded ho => ?_
          rw [hsessions] at ho
          exact hroom hbounded ho s hs (not_lt.mp hfits)

/-! ## Runs -/

def RoomLeft (limits : Limits) (a : Authority) : PinInput → Prop
  | .resume n (.ok captured) _ => ∀ call, a.calls[n]? = some call → call.done = false →
      call.session ∈ a.sessions → RoomFor limits a call.session captured
  | _ => True

theorem Sound.resume (n : ℕ) (captured : Except CheckpointError Captured)
    (generated : Option Str)
    (hroom : bounded = true → RoomLeft limits a (.resume n captured generated)) :
    Sound limits bounded (a.resume limits n captured generated).2 := by
  unfold Authority.resume
  split
  · exact h
  · rename_i call hcall
    split_ifs with hdone
    · exact h
    · have hcalled : Sound limits bounded
          { a with calls := a.calls.set n { call with done := true } } := h.same rfl rfl rfl rfl
      dsimp only
      split
      · exact hcalled
      · rename_i value
        refine hcalled.mint _ _ _ fun hbounded ho => ?_
        exact hroom hbounded call hcall (Bool.eq_false_of_not_eq_true hdone) ho

theorem Sound.step (i : PinInput) (hroom : bounded = true → RoomLeft limits a i) :
    Sound limits bounded (a.step limits i) := by
  cases i with
  | createSession identity => exact h.createSession identity
  | prepare identity clientId unavailable => exact h.prepare identity clientId unavailable
  | resume n captured generated => exact h.resume n captured generated hroom
  | bind checkpointId scope => exact h.bind checkpointId scope
  | read checkpointId scope => exact h.read checkpointId scope
  | fetch checkpointId scope => exact h.fetch checkpointId scope
  | release checkpointId scope => exact h.release checkpointId scope
  | releaseAttachment scope => exact h.releaseAttachment scope
  | releaseClient clientId => exact h.releaseClient clientId
  | rehomeSession retired identity => exact h.rehomeSession retired identity
  | closeSession identity => exact h.closeSession identity
  | cleanupExpired => exact h.cleanupExpired
  | session identity =>
    change Sound limits bounded ((a.get identity).elim a a.cleanupExpiredSession)
    rcases a.get identity with _ | o
    · exact h
    · exact (cleanup_spec h o).1
  | close => exact h.close
  | pass ms => exact h.same rfl rfl rfl rfl

end Sound

theorem Sound.new (now : ℤ) : Sound limits bounded (Authority.new now) where
  listed := List.nodup_nil
  sessions := by simp [Authority.new]
  ids := by simp [Live, Authority.new]
  serials := by simp [Live, Authority.new]
  named := by simp [Live, Authority.new]
  tracked := by simp [Live, Authority.new]
  recorded := by simp [Authority.new]
  lawful := Lawful.nil

structure Kept (limits : Limits) (a : Authority) : Prop where
  pinned : ∀ o ∈ a.sessions, ∃ s, a.held[o]? = some s ∧
    s.pinnedBytes = ((s.pins.map (·.byteLength)).sum : ℕ) ∧
    s.pinnedBytes ≤ limits.maxPinnedBytesPerSession
  single : ∀ o p o' q, Live a o p → Live a o' q → p.checkpointId = q.checkpointId → o = o' ∧ p = q
  handouts : Lawful a.log

theorem Sound.kept (h : Sound limits bounded a) : Kept limits a where
  pinned o ho := by
    obtain ⟨s, hs, hsound⟩ := h.sessions o ho
    exact ⟨s, hs, hsound.pinned, hsound.fits⟩
  single _ _ _ _ hp hq hid := h.live_eq hp hq hid
  handouts := h.lawful

theorem pins_kept (limits : Limits) (now : ℤ) (inputs : List PinInput) :
    Kept limits (Runs.after (Authority.step limits) (Authority.new now) inputs) ∧
      (Runs.Meets (Authority.step limits) (RoomLeft limits) (Authority.new now) inputs →
        ∀ o ∈ (Runs.after (Authority.step limits) (Authority.new now) inputs).sessions,
          ((Runs.after (Authority.step limits) (Authority.new now) inputs).pinsOf o).length ≤
            limits.maxPinsPerSession) := by
  constructor
  · have hsound : Sound limits false
        (Runs.after (Authority.step limits) (Authority.new now) inputs) :=
      Runs.invariant (fun a i h => h.step i (by simp)) (Sound.new now) inputs
    exact hsound.kept
  · intro hmeets o ho
    have hsound : Sound limits true
        (Runs.after (Authority.step limits) (Authority.new now) inputs) :=
      Runs.invariant_of_meets (fun a i h hroom => h.step i fun _ => hroom) (Sound.new now) hmeets
    obtain ⟨s, hs, hsession⟩ := hsound.sessions o ho
    rw [pinsOf_held hs]
    exact hsession.room rfl

/-! ## Two calls that wait -/

def narrow : Limits := ⟨1, 1, 8, 1000⟩

def desk : TerminalIdentity := ⟨js "s", js "p", js "t"⟩

def oneByte : Captured := ⟨0, 0, ⟨1, 1⟩, ⟨1, 1⟩, [0], []⟩

def single : List PinInput :=
  [.createSession desk, .prepare desk (js "c") false, .resume 0 (.ok oneByte) none,
    .bind (js "terminal-checkpoint:1") ⟨desk, js "c", js "a"⟩,
    .fetch (js "terminal-checkpoint:1") ⟨desk, js "c", js "a"⟩]

theorem pins_kept_single :
    ∀ o ∈ (Runs.after (Authority.step narrow) (Authority.new 0) single).sessions,
      ((Runs.after (Authority.step narrow) (Authority.new 0) single).pinsOf o).length ≤ 1 := by
  refine (pins_kept narrow 0 single).2 ?_
  refine ⟨trivial, trivial, ?_, trivial, trivial, trivial⟩
  have hsessions : (Runs.after (Authority.step narrow) (Authority.new 0) (single.take 2)).sessions =
      [0] := by decide +kernel
  have hempty : (Runs.after (Authority.step narrow) (Authority.new 0) (single.take 2)).pinsOf 0 =
      [] := by decide +kernel
  intro call _ _ hlisted s hs _
  have hzero : call.session = 0 := List.mem_singleton.mp (hsessions ▸ hlisted)
  rw [hzero] at hs
  have hpins : s.pins = [] := (pinsOf_held hs).symm.trans hempty
  rw [hpins]
  exact Nat.zero_lt_one

def double : List PinInput :=
  [.createSession desk, .prepare desk (js "c") false, .prepare desk (js "c") false,
    .resume 0 (.ok oneByte) none, .resume 1 (.ok oneByte) none]

theorem limit_passed : ∃ o ∈ (Runs.after (Authority.step narrow) (Authority.new 0) double).sessions,
    narrow.maxPinsPerSession <
      ((Runs.after (Authority.step narrow) (Authority.new 0) double).pinsOf o).length := by
  decide +kernel

end Terminay.Terminal.Pins
