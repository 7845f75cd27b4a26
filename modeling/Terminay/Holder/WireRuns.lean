import Terminay.Holder.Reading

/-!
# Runs of the holder's output

What the attached server reads of a session, from the answer to its attach on, is the session's
stream from the answer's position on, without a gap and without an overlap, up to where the exit
says it ends.
-/

namespace Terminay.Holder
open Script Terminal Outcome Chunks

/-- The part of a session that its output depends on. -/
structure Wire where
  sessionId : Str
  ring : BoundedChunkQueue
  outputPosition : ℕ
  bufferedFrom : ℕ
  streaming : Bool
  exit : Option ExitRecord
  dataSubscription : Bool
  stream : Bytes

def HeldSession.wire (h : HeldSession) : Wire :=
  ⟨h.sessionId, h.ring, h.outputPosition, h.bufferedFrom, h.streaming, h.exit, h.dataSubscription,
    h.stream⟩

structure Wire.Kept (w : Wire) : Prop where
  laid : LaidOut w.bufferedFrom w.ring.live w.outputPosition
  content : content w.ring.live = w.stream.drop w.bufferedFrom
  position : w.outputPosition = w.stream.length
  filled : ∀ c ∈ w.ring.live, c.bytes ≠ []
  quiet : w.exit ≠ none → w.dataSubscription = false

def framesTo (sent : List Frame) (socket o : ℕ) : List Frame :=
  sent.filter fun f => f.socket = socket ∧ f.session = some o

structure Wire.Follows (w : Wire) (registered : Bool) (r : Reading) : Prop where
  current : w.streaming = true → ∀ n, r = .upTo n → n = w.outputPosition
  opened : w.streaming = true → registered = true → r ≠ .idle

/-- A reader at every socket takes what was written for the session. -/
def ReadsAt (registered : Bool) (attached : Option ℕ) (destroyed : Bool) (sent : List Frame) (o : ℕ)
    (w : Wire) : Prop :=
  ∀ socket, ∃ r, read registered w.stream .idle (framesTo sent socket o) = some r ∧
    (r = .closed → w.exit ≠ none) ∧
    (attached = some socket → destroyed = false → w.Follows registered r)

def positionOf (wires : List Wire) (o : ℕ) : ℕ := (wires[o]?.map Wire.outputPosition).getD 0

structure WiredAll (wires : List Wire) (sessions : List ℕ) (attached : Option ℕ) (destroyed : Bool)
    (nextSocket : ℕ) (recoveries : List Recovery) (sent : List Frame) : Prop where
  kept : ∀ (o : ℕ) w, wires[o]? = some w → w.Kept
  reads : ∀ (o : ℕ) w, wires[o]? = some w → ReadsAt (o ∈ sessions) attached destroyed sent o w
  quiet : attached = none → ∀ o ∈ sessions, ∀ w, wires[o]? = some w → w.streaming = false
  sockets : ∀ f ∈ sent, f.socket < nextSocket
  attachedSocket : ∀ socket ∈ attached, socket < nextSocket
  known : ∀ f ∈ sent, ∀ o ∈ f.session, o < wires.length
  positions : ∀ r ∈ recoveries, r.position ≤ positionOf wires r.session

def SessionHolder.wires (s : SessionHolder) : List Wire := s.held.map HeldSession.wire

abbrev SessionHolder.Wired (s : SessionHolder) : Prop :=
  WiredAll s.wires s.sessions s.attached s.destroyed s.nextSocket s.recoveries s.sent

section Wires

variable {s s' : SessionHolder} {o : ℕ} {h : HeldSession} {f : HeldSession → HeldSession}
  {out : List Outgoing}

theorem wires_get {w : Wire} :
    s.wires[o]? = some w ↔ ∃ h, s.held[o]? = some h ∧ h.wire = w := by
  rw [SessionHolder.wires, List.getElem?_map, Option.map_eq_some_iff]

theorem wires_of_held (hh : s.held[o]? = some h) : s.wires[o]? = some h.wire :=
  wires_get.mpr ⟨h, hh, rfl⟩

theorem positionOf_eq {wires : List Wire} {w : Wire} (hw : wires[o]? = some w) :
    positionOf wires o = w.outputPosition := by
  rw [positionOf, hw]
  rfl

theorem within_wire {wires : List Wire} {w : Wire} {n : ℕ} (hn : n ≤ positionOf wires o)
    (hw : wires[o]? = some w) : n ≤ w.outputPosition := by
  rw [positionOf_eq hw] at hn
  exact hn

theorem wires_length : s.wires.length = s.held.length := List.length_map _

theorem wires_update (hh : s.held[o]? = some h) :
    (s.update o f).wires = s.wires.set o (f h).wire := by
  refine List.ext_getElem? fun p => ?_
  rw [SessionHolder.wires, List.getElem?_map, SessionHolder.update, List.getElem?_modify,
    List.getElem?_set, wires_length, SessionHolder.wires, List.getElem?_map]
  by_cases heq : o = p
  · subst heq
    rw [hh, if_pos rfl, if_pos (List.getElem?_eq_some_iff.mp hh).1]
    simp
  · rw [if_neg heq]
    rcases s.held[p]? with _ | g
    · rfl
    · simp [heq]

theorem wires_update_same (hsame : ∀ h, (f h).wire = h.wire) : (s.update o f).wires = s.wires := by
  refine List.ext_getElem? fun p => ?_
  rw [SessionHolder.wires, List.getElem?_map, SessionHolder.update, List.getElem?_modify,
    SessionHolder.wires, List.getElem?_map]
  rcases s.held[p]? with _ | g
  · rfl
  · by_cases heq : o = p
    · simp [heq, hsame]
    · simp [heq]

theorem wires_updateAll_same (hsame : ∀ h, (f h).wire = h.wire) :
    (s.updateAll f).wires = s.wires := by
  refine List.ext_getElem? fun p => ?_
  rw [SessionHolder.wires, List.getElem?_map, SessionHolder.updateAll, List.getElem?_mapIdx,
    SessionHolder.wires, List.getElem?_map, Option.map_map]
  refine congrArg (fun g => Option.map g s.held[p]?) (funext fun h => ?_)
  simp only [Function.comp_apply]
  split_ifs
  · exact hsame h
  · rfl

theorem wire_calm {g : HeldSession} (hcalm : g.calm = h.calm) : g.wire = h.wire := by
  have hwire := congrArg HeldSession.wire hcalm
  exact hwire

theorem Sends.wires (hsends : Sends s out s') : s'.wires = s.wires := by
  refine List.ext_getElem? fun p => ?_
  rw [SessionHolder.wires, SessionHolder.wires, List.getElem?_map, List.getElem?_map]
  have hheld := congrArg (Option.map HeldSession.wire) (hsends.held p)
  rw [Option.map_map, Option.map_map] at hheld
  exact hheld

theorem wire_syncFlow (flow : Bool) (h : HeldSession) : (h.syncFlow flow).wire = h.wire := by
  rw [HeldSession.syncFlow]
  split_ifs <;> rfl

theorem framesTo_append (sent more : List Frame) (socket o : ℕ) :
    framesTo (sent ++ more) socket o = framesTo sent socket o ++ framesTo more socket o :=
  List.filter_append ..

theorem framesTo_framesOf (hout : ∀ f ∈ out, f.session = some o) (socket : ℕ) :
    framesTo (s.framesOf out) socket o =
      if s.attached = some socket ∧ s.destroyed = false then out.map (Outgoing.frame socket)
      else [] := by
  rw [SessionHolder.framesOf]
  split
  next hnone =>
    rw [hnone, if_neg (fun hand => by cases hand.1)]
    rfl
  next k hattached =>
    rw [hattached]
    rcases hdestroyed : s.destroyed with _ | _
    · by_cases hk : k = socket
      · subst hk
        rw [if_neg Bool.false_ne_true, if_pos ⟨rfl, rfl⟩]
        refine List.filter_eq_self.mpr fun f hf => ?_
        obtain ⟨g, hg, rfl⟩ := List.mem_map.mp hf
        exact decide_eq_true ⟨rfl, hout g hg⟩
      · rw [if_neg Bool.false_ne_true, if_neg (fun hand => hk (Option.some.inj hand.1))]
        refine List.filter_eq_nil_iff.mpr fun f hf heq => ?_
        obtain ⟨g, hg, rfl⟩ := List.mem_map.mp hf
        exact hk (of_decide_eq_true heq).1
    · rw [if_pos rfl, if_neg (fun hand => by cases hand.2)]
      rfl

theorem framesTo_others (hout : ∀ f ∈ out, f.session ≠ some o) (socket : ℕ) :
    framesTo (s.framesOf out) socket o = [] := by
  refine List.filter_eq_nil_iff.mpr fun f hf heq => ?_
  rw [SessionHolder.framesOf] at hf
  split at hf
  · cases hf
  · split_ifs at hf
    · cases hf
    · obtain ⟨g, hg, rfl⟩ := List.mem_map.mp hf
      exact hout g hg (of_decide_eq_true heq).2

theorem framesOf_mem {f : Frame} (hf : f ∈ s.framesOf out) :
    (∃ g ∈ out, g.session = f.session) ∧ s.attached = some f.socket := by
  rw [SessionHolder.framesOf] at hf
  split at hf
  · cases hf
  next k hattached =>
    split_ifs at hf
    · cases hf
    · obtain ⟨g, hg, rfl⟩ := List.mem_map.mp hf
      exact ⟨⟨g, hg, rfl⟩, hattached⟩

end Wires

section Delivery

variable {s s' : SessionHolder} {o : ℕ} {w : Wire} {out : List Outgoing}

/-- The holder sends a session's frames while the session changes: whatever the reader at the
attached socket stood at, it takes them and follows the session again. -/
theorem deliver_wired (v : Wire) (out : List Outgoing) (hs : s.Wired) (hw : s.wires[o]? = some w)
    (hwires : s'.wires = s.wires.set o v) (hsent : s'.sent = s.sent ++ s.framesOf out)
    (hsessions : s'.sessions = s.sessions) (hattached : s'.attached = s.attached)
    (hdestroyed : s'.destroyed = s.destroyed) (hnext : s'.nextSocket = s.nextSocket)
    (hrecoveries : ∀ r ∈ s'.recoveries, r.session ≠ o → r ∈ s.recoveries)
    (hpositions : ∀ r ∈ s'.recoveries, r.session = o → r.position ≤ v.outputPosition)
    (hout : ∀ f ∈ out, f.session = some o) (hkept : v.Kept)
    (hquiet : s.attached = none → o ∈ s.sessions → v.streaming = false)
    (hgrows : w.stream <+: v.stream) (hexit : w.exit ≠ none → v.exit ≠ none)
    (hread : ∀ socket, s.attached = some socket → s.destroyed = false → ∀ r,
      w.Follows (o ∈ s.sessions) r → (r = .closed → w.exit ≠ none) →
        ∃ r', read (o ∈ s.sessions) v.stream r (out.map (Outgoing.frame socket)) = some r' ∧
          (r' = .closed → v.exit ≠ none) ∧ v.Follows (o ∈ s.sessions) r') :
    s'.Wired := by
  have hlt : o < s.wires.length := (List.getElem?_eq_some_iff.mp hw).1
  have hother : ∀ p u, p ≠ o → s'.wires[p]? = some u → s.wires[p]? = some u := by
    intro p u hne hv
    rw [hwires, List.getElem?_set_ne (Ne.symm hne)] at hv
    exact hv
  have hself : ∀ u, s'.wires[o]? = some u → u = v := by
    intro u hv
    rw [hwires, List.getElem?_set_self hlt] at hv
    exact (Option.some.inj hv).symm
  constructor
  · intro p u hv
    by_cases hp : p = o
    · subst hp
      rw [hself u hv]
      exact hkept
    · exact hs.kept p u (hother p u hp hv)
  · intro p u hv socket
    rw [hsent, framesTo_append, hsessions, hattached, hdestroyed]
    by_cases hp : p = o
    · subst hp
      rw [hself u hv, framesTo_framesOf hout]
      obtain ⟨r, hr, hclosed, hfollows⟩ := hs.reads p w hw socket
      obtain ⟨more, hmore⟩ := hgrows
      have hlonger := read_grows more hr
      rw [hmore] at hlonger
      split_ifs with hto
      · obtain ⟨r', hr', hclosed', hfollows'⟩ :=
          hread socket hto.1 hto.2 r (hfollows hto.1 hto.2) hclosed
        refine ⟨r', ?_, hclosed', fun _ _ => hfollows'⟩
        rw [read_append, hlonger]
        exact hr'
      · rw [List.append_nil]
        exact ⟨r, hlonger, fun heq => hexit (hclosed heq), fun ha hd => absurd ⟨ha, hd⟩ hto⟩
    · have hnone : framesTo (s.framesOf out) socket p = [] := by
        refine framesTo_others (fun f hf heq => hp ?_) socket
        rw [hout f hf] at heq
        exact (Option.some.inj heq).symm
      rw [hnone, List.append_nil]
      exact hs.reads p u (hother p u hp hv) socket
  · intro hnone p hp u hv
    rw [hattached] at hnone
    rw [hsessions] at hp
    by_cases heq : p = o
    · subst heq
      rw [hself u hv]
      exact hquiet hnone hp
    · exact hs.quiet hnone p hp u (hother p u heq hv)
  · intro f hf
    rw [hnext]
    rw [hsent] at hf
    rcases List.mem_append.mp hf with hf | hf
    · exact hs.sockets f hf
    · exact hs.attachedSocket _ (framesOf_mem hf).2
  · intro k hk
    rw [hnext]
    rw [hattached] at hk
    exact hs.attachedSocket k hk
  · intro f hf p hp
    rw [hwires, List.length_set]
    rw [hsent] at hf
    rcases List.mem_append.mp hf with hf | hf
    · exact hs.known f hf p hp
    · obtain ⟨⟨g, hg, hsame⟩, -⟩ := framesOf_mem hf
      rw [← hsame, hout g hg] at hp
      rw [← Option.some.inj hp]
      exact hlt
  · intro r hr
    by_cases heq : r.session = o
    · rw [heq, positionOf, hwires, List.getElem?_set_self hlt]
      exact hpositions r hr heq
    · rw [positionOf, hwires, List.getElem?_set_ne (Ne.symm heq)]
      exact hs.positions r (hrecoveries r hr heq)

theorem told_wired (hs : s.Wired) (hsends : Sends s out s') (hout : ∀ f ∈ out, f.session = none) :
    s'.Wired := by
  have hframes : ∀ socket p, framesTo s'.sent socket p = framesTo s.sent socket p := by
    intro socket p
    rw [hsends.sent, framesTo_append, framesTo_others (fun f hf heq => ?_), List.append_nil]
    rw [hout f hf] at heq
    cases heq
  constructor
  · rw [hsends.wires]
    exact hs.kept
  · intro p v hv socket
    rw [hsends.wires] at hv
    rw [hframes, hsends.sessions, hsends.attached, hsends.destroyed]
    exact hs.reads p v hv socket
  · rw [hsends.wires, hsends.sessions, hsends.attached]
    exact hs.quiet
  · intro f hf
    rw [hsends.nextSocket]
    rw [hsends.sent] at hf
    rcases List.mem_append.mp hf with hf | hf
    · exact hs.sockets f hf
    · exact hs.attachedSocket _ (framesOf_mem hf).2
  · rw [hsends.attached, hsends.nextSocket]
    exact hs.attachedSocket
  · intro f hf p hp
    rw [hsends.wires]
    rw [hsends.sent] at hf
    rcases List.mem_append.mp hf with hf | hf
    · exact hs.known f hf p hp
    · obtain ⟨⟨g, hg, hsame⟩, -⟩ := framesOf_mem hf
      rw [← hsame, hout g hg] at hp
      cases hp
  · rw [hsends.wires, hsends.recoveries]
    exact hs.positions

theorem send_wired {b : ℕ → Bool} (hs : s.Wired) (message : ServerMessage) :
    (s.send b message).Wired :=
  told_wired hs (sendFor_sends s none 0 message) fun f hf => by
    rw [List.mem_singleton.mp hf]

end Delivery

section Fading

variable {s s' : SessionHolder}

structure Wire.Fades (w w' : Wire) : Prop where
  ring : w'.ring = w.ring
  outputPosition : w'.outputPosition = w.outputPosition
  bufferedFrom : w'.bufferedFrom = w.bufferedFrom
  exit : w'.exit = w.exit
  stream : w'.stream = w.stream
  streaming : w'.streaming = true → w.streaming = true
  dataSubscription : w'.dataSubscription = true → w.dataSubscription = true

theorem Wire.Fades.refl (w : Wire) : w.Fades w := ⟨rfl, rfl, rfl, rfl, rfl, id, id⟩

theorem Wire.Kept.fades {w w' : Wire} (hw : w.Kept) (hfades : w.Fades w') : w'.Kept := by
  constructor
  · rw [hfades.bufferedFrom, hfades.ring, hfades.outputPosition]
    exact hw.laid
  · rw [hfades.ring, hfades.stream, hfades.bufferedFrom]
    exact hw.content
  · rw [hfades.outputPosition, hfades.stream]
    exact hw.position
  · rw [hfades.ring]
    exact hw.filled
  · intro hexit
    rw [hfades.exit] at hexit
    refine Bool.eq_false_iff.mpr fun hlistens => ?_
    have hstill := hfades.dataSubscription hlistens
    rw [hw.quiet hexit] at hstill
    cases hstill

/-- Sessions fade, are unregistered, and the server may go: every reader is where it was. -/
theorem fade_wired (hs : s.Wired)
    (hfades : ∀ (o : ℕ) w', s'.wires[o]? = some w' → ∃ w, s.wires[o]? = some w ∧ w.Fades w')
    (hlength : s'.wires.length = s.wires.length)
    (hsessions : ∀ o ∈ s'.sessions, o ∈ s.sessions)
    (hattached : ∀ k, s'.attached = some k → s.attached = some k)
    (hdestroyed : s'.attached ≠ none → s'.destroyed = false → s.destroyed = false)
    (hquiet : s'.attached = none → ∀ o ∈ s'.sessions, ∀ w, s'.wires[o]? = some w →
      w.streaming = false)
    (hnext : s'.nextSocket = s.nextSocket) (hsent : s'.sent = s.sent)
    (hrecoveries : ∀ r ∈ s'.recoveries, r.position ≤ positionOf s.wires r.session) :
    s'.Wired := by
  constructor
  · intro o w' hw'
    obtain ⟨w, hw, hfade⟩ := hfades o w' hw'
    exact (hs.kept o w hw).fades hfade
  · intro o w' hw' socket
    obtain ⟨w, hw, hfade⟩ := hfades o w' hw'
    obtain ⟨r, hr, hclosed, hfollows⟩ := hs.reads o w hw socket
    rw [hsent, hfade.stream]
    refine ⟨r, read_weaken (fun hmem => ?_) hr, fun heq => ?_, fun hk hd => ?_⟩
    · exact decide_eq_true (hsessions o (of_decide_eq_true hmem))
    · rw [hfade.exit]
      exact hclosed heq
    · have hsome : s'.attached ≠ none := by
        rw [hk]
        exact Option.some_ne_none _
      have hold := hfollows (hattached socket hk) (hdestroyed hsome hd)
      refine ⟨fun hstreaming n hn => ?_, fun hstreaming hmem => ?_⟩
      · rw [hfade.outputPosition]
        exact hold.current (hfade.streaming hstreaming) n hn
      · exact hold.opened (hfade.streaming hstreaming)
          (decide_eq_true (hsessions o (of_decide_eq_true hmem)))
  · exact hquiet
  · rw [hsent, hnext]
    exact hs.sockets
  · intro k hk
    rw [hnext]
    exact hs.attachedSocket k (hattached k hk)
  · rw [hsent, hlength]
    exact hs.known
  · intro r hr
    have hle := hrecoveries r hr
    rcases hw' : s'.wires[r.session]? with _ | w'
    · have hnone : s.wires[r.session]? = none := by
        rw [List.getElem?_eq_none_iff] at hw' ⊢
        omega
      rw [positionOf, hnone] at hle
      rw [positionOf, hw']
      exact hle
    · obtain ⟨w, hw, hfade⟩ := hfades _ w' hw'
      rw [positionOf_eq hw', hfade.outputPosition]
      exact within_wire hle hw

theorem same_wired (hs : s.Wired) (hwires : s'.wires = s.wires)
    (hsessions : s'.sessions = s.sessions) (hattached : s'.attached = s.attached)
    (hdestroyed : s'.destroyed = s.destroyed) (hnext : s'.nextSocket = s.nextSocket)
    (hrecoveries : ∀ r ∈ s'.recoveries, r ∈ s.recoveries) (hsent : s'.sent = s.sent) :
    s'.Wired := by
  refine fade_wired hs (fun o w hw => ?_) (congrArg List.length hwires) (fun o ho => ?_)
    (fun k hk => ?_) (fun _ hd => ?_) ?_ hnext hsent fun r hr => hs.positions r (hrecoveries r hr)
  · rw [hwires] at hw
    exact ⟨w, hw, .refl w⟩
  · rw [hsessions] at ho
    exact ho
  · rw [hattached] at hk
    exact hk
  · rw [hdestroyed] at hd
    exact hd
  · rw [hwires, hsessions, hattached]
    exact hs.quiet

theorem update_wired (hs : s.Wired) {o : ℕ} {f : HeldSession → HeldSession}
    (hsame : ∀ h, (f h).wire = h.wire) : (s.update o f).Wired :=
  same_wired hs (wires_update_same hsame) rfl rfl rfl rfl (fun _ hr => hr) rfl

theorem updateAll_wired (hs : s.Wired) {f : HeldSession → HeldSession}
    (hsame : ∀ h, (f h).wire = h.wire) : (s.updateAll f).Wired :=
  same_wired hs (wires_updateAll_same hsame) rfl rfl rfl rfl (fun _ hr => hr) rfl

theorem wires_updateAll {f : HeldSession → HeldSession} {o : ℕ} {w' : Wire} :
    (s.updateAll f).wires[o]? = some w' ↔
      ∃ h, s.held[o]? = some h ∧ (if o ∈ s.sessions then f h else h).wire = w' := by
  rw [wires_get]
  constructor
  · rintro ⟨g, hg, rfl⟩
    obtain ⟨h, hh, rfl⟩ := (held_updateAll g).mp hg
    exact ⟨h, hh, rfl⟩
  · rintro ⟨h, hh, rfl⟩
    exact ⟨_, (held_updateAll _).mpr ⟨h, hh, rfl⟩, rfl⟩

end Fading

section Quiet

variable {b : ℕ → Bool} {s s' : SessionHolder} {o : ℕ}

theorem releaseFlow_wired (hs : s.Wired) : s.releaseFlow.Wired := by
  rw [SessionHolder.releaseFlow]
  split_ifs
  · exact updateAll_wired hs (wire_syncFlow false)
  · exact hs

theorem close_wired (hs : s.Wired) (reason : CloseReason) : (s.close b reason).Wired := by
  rw [SessionHolder.close]
  split_ifs
  · exact hs
  · refine updateAll_wired (send_wired (s := { s with closing := .endingSessions }) hs _) fun h => ?_
    split_ifs <;> rfl

theorem exitIfIdle_wired (hs : s.Wired) : (s.exitIfIdle b).Wired := by
  rw [SessionHolder.exitIfIdle]
  split_ifs
  · exact hs
  · exact close_wired hs _
  · exact hs

theorem wire_observe (flow : Bool) (number bytes : ℕ) (h : HeldSession) :
    (h.observe flow number bytes).wire = h.wire := by
  rw [HeldSession.observe]
  dsimp only
  split_ifs
  · exact wire_syncFlow _ _
  · rfl

theorem wire_settle (flow : Bool) (bytes : ℕ) (error : Option Str) (h : HeldSession) :
    (h.settle flow bytes error).wire = h.wire := by
  rw [HeldSession.settle]
  dsimp only
  split_ifs
  · exact wire_syncFlow _ _
  · rfl

theorem observePresentation_wires (bytes : ℕ) :
    (s.observePresentation o bytes).wires = s.wires ∧
      (s.observePresentation o bytes).sessions = s.sessions ∧
      (s.observePresentation o bytes).attached = s.attached ∧
      (s.observePresentation o bytes).destroyed = s.destroyed ∧
      (s.observePresentation o bytes).nextSocket = s.nextSocket ∧
      (s.observePresentation o bytes).recoveries = s.recoveries ∧
      (s.observePresentation o bytes).sent = s.sent := by
  rw [SessionHolder.observePresentation]
  split
  · exact ⟨rfl, rfl, rfl, rfl, rfl, rfl, rfl⟩
  · split_ifs
    · exact ⟨rfl, rfl, rfl, rfl, rfl, rfl, rfl⟩
    · refine ⟨?_, rfl, rfl, rfl, rfl, rfl, rfl⟩
      exact wires_update_same (wire_observe _ _ _)

theorem observePresentation_wired (hs : s.Wired) (bytes : ℕ) :
    (s.observePresentation o bytes).Wired := by
  obtain ⟨hwires, hsessions, hattached, hdestroyed, hnext, hrecoveries, hsent⟩ :=
    observePresentation_wires (s := s) (o := o) bytes
  refine same_wired hs hwires hsessions hattached hdestroyed hnext (fun r hr => ?_) hsent
  rw [hrecoveries] at hr
  exact hr

theorem settled_wired (hs : s.Wired) (i : ℕ) (error : Option Str) : (s.settled i error).Wired := by
  rw [SessionHolder.settled]
  split
  · exact hs
  · exact update_wired hs (wire_settle _ _ _)

theorem release_fades (h : HeldSession) : h.wire.Fades h.release.wire :=
  ⟨rfl, rfl, rfl, rfl, rfl, id, fun hlistens => (by cases hlistens)⟩

theorem fewer_wired (hs : s.Wired) {sessions : List ℕ} (hfewer : ∀ o ∈ sessions, o ∈ s.sessions) :
    { s with sessions := sessions }.Wired :=
  fade_wired hs (fun _ w hw => ⟨w, hw, .refl w⟩) rfl hfewer (fun _ hk => hk) (fun _ hd => hd)
    (fun hnone o ho => hs.quiet hnone o (hfewer o ho)) rfl rfl hs.positions

theorem endSession_wired (hs : s.Wired) (sessionId : Str) :
    (s.endSession b sessionId).Wired := by
  rw [SessionHolder.endSession]
  split
  · exact hs
  next o h hget =>
    have hremoved : { s with sessions := s.sessions.filter fun p => p ≠ o }.Wired :=
      fewer_wired hs fun p hp => (List.mem_filter.mp hp).1
    dsimp only
    split_ifs
    · exact update_wired hremoved fun _ => rfl
    · refine exitIfIdle_wired (fade_wired hremoved (fun p w' hw' => ?_) ?_ (fun _ hp => hp)
        (fun _ hk => hk) (fun _ hd => hd) (fun hnone p hp w' hw' => ?_) rfl rfl hremoved.positions)
      · obtain ⟨g', hg', rfl⟩ := wires_get.mp hw'
        obtain ⟨g, hg, rfl⟩ := (held_update g').mp hg'
        refine ⟨g.wire, wires_of_held hg, ?_⟩
        split_ifs
        · exact release_fades g
        · exact .refl _
      · rw [wires_length, wires_length]
        exact length_update
      · obtain ⟨g', hg', rfl⟩ := wires_get.mp hw'
        obtain ⟨g, hg, rfl⟩ := (held_update g').mp hg'
        have hstill := hremoved.quiet hnone p hp g.wire (wires_of_held hg)
        split_ifs
        · exact hstill
        · exact hstill

theorem detached_wired (hs : s.Wired) : (s.detached b).Wired := by
  have hsynced : (SessionHolder.updateAll { s with attached := none, flowPaused := false }
      fun h => HeldSession.syncFlow false { h with streaming := false, serverPaused := false }).Wired := by
    refine fade_wired hs (fun o w' hw' => ?_) ?_ (fun _ ho => ho) (fun _ hk => (by cases hk))
      (fun hsome _ => absurd rfl hsome) (fun _ o (ho : o ∈ s.sessions) w' hw' => ?_) rfl rfl
        hs.positions
    · obtain ⟨h, hh, rfl⟩ := wires_updateAll.mp hw'
      refine ⟨h.wire, wires_of_held hh, ?_⟩
      split_ifs
      · rw [wire_syncFlow]
        exact ⟨rfl, rfl, rfl, rfl, rfl, fun hstreaming => (by cases hstreaming), id⟩
      · exact .refl _
    · rw [wires_length, wires_length]
      exact length_updateAll
    · obtain ⟨h, hh, rfl⟩ := wires_updateAll.mp hw'
      rw [if_pos ho, wire_syncFlow]
      rfl
  rw [SessionHolder.detached]
  split_ifs
  · exact hsynced
  · exact close_wired hsynced _
  · exact hsynced

theorem ended_wired (hs : s.Wired) : s.ended.Wired := by
  have hfades : ∀ (o : ℕ) w', (s.updateAll HeldSession.release).wires[o]? = some w' →
      ∃ w, s.wires[o]? = some w ∧ w.Fades w' := by
    intro o w' hw'
    obtain ⟨h, hh, rfl⟩ := wires_updateAll.mp hw'
    refine ⟨h.wire, wires_of_held hh, ?_⟩
    split_ifs
    · exact release_fades h
    · exact .refl _
  have hlength : (s.updateAll HeldSession.release).wires.length = s.wires.length := by
    rw [wires_length, wires_length]
    exact length_updateAll
  rw [SessionHolder.ended]
  split_ifs
  · exact hs
  · exact fade_wired hs hfades hlength (fun _ ho => (by cases ho)) (fun _ hk => hk)
      (fun _ hd => hd) (fun _ _ ho => (by cases ho)) rfl rfl hs.positions
  · exact fade_wired hs hfades hlength (fun _ ho => (by cases ho)) (fun _ hk => (by cases hk))
      (fun hsome _ => absurd rfl hsome) (fun _ _ ho => (by cases ho)) rfl rfl hs.positions

theorem destroyed_wired (hs : s.Wired) : { s with destroyed := true }.Wired :=
  fade_wired hs (fun _ w hw => ⟨w, hw, .refl w⟩) rfl (fun _ ho => ho) (fun _ hk => hk)
    (fun _ hd => (by cases hd)) hs.quiet rfl rfl hs.positions

theorem disconnected_wired (hs : s.Wired) : (s.disconnected b).Wired := by
  rw [SessionHolder.disconnected]
  split
  · exact hs
  · split_ifs
    · exact detached_wired hs
    · exact detached_wired hs

theorem admitServer_wired (hs : s.Wired) (version : ℕ) : (s.admitServer version).Wired := by
  have hframes : ∀ (f : Frame), f.session = none → ∀ socket o,
      framesTo (s.sent ++ [f]) socket o = framesTo s.sent socket o := by
    intro f hf socket o
    rw [framesTo_append]
    simp [framesTo, hf]
  have hsockets : ∀ (f : Frame), f.socket = s.nextSocket → ∀ g ∈ s.sent ++ [f],
      g.socket < s.nextSocket + 1 := by
    intro f hf g hg
    rcases List.mem_append.mp hg with hg | hg
    · have hlt := hs.sockets g hg
      omega
    · rw [List.mem_singleton.mp hg, hf]
      omega
  have hknown : ∀ (f : Frame), f.session = none → ∀ g ∈ s.sent ++ [f], ∀ o ∈ g.session,
      o < s.wires.length := by
    intro f hf g hg o ho
    rcases List.mem_append.mp hg with hg | hg
    · exact hs.known g hg o ho
    · rw [List.mem_singleton.mp hg, hf] at ho
      cases ho
  rw [SessionHolder.admitServer]
  split_ifs
  · exact hs
  · split
    next k hk =>
      refine ⟨hs.kept, fun o w hw socket => ?_, hs.quiet, hsockets _ rfl, fun k hk => ?_,
        hknown _ rfl, hs.positions⟩
      · rw [hframes _ rfl]
        exact hs.reads o w hw socket
      · have hlt := hs.attachedSocket k hk
        dsimp only
        omega
    next hnone =>
      refine ⟨hs.kept, fun o w hw socket => ?_, fun hsome => (by cases hsome), hsockets _ rfl,
        fun k hk => ?_, hknown _ rfl, hs.positions⟩
      · obtain ⟨r, hr, hclosed, -⟩ := hs.reads o w hw socket
        rw [hframes _ rfl]
        refine ⟨r, hr, hclosed, fun hsocket _ => ?_⟩
        have hfresh : framesTo s.sent socket o = [] := by
          refine List.filter_eq_nil_iff.mpr fun f hf heq => ?_
          have hlt := hs.sockets f hf
          rw [(of_decide_eq_true heq).1, ← Option.some.inj hsocket] at hlt
          exact Nat.lt_irrefl _ hlt
        rw [hfresh, read_nil] at hr
        cases hr
        refine ⟨fun _ n hn => (by cases hn), fun hstreaming hmem => ?_⟩
        rw [hs.quiet hnone o (of_decide_eq_true hmem) w hw] at hstreaming
        cases hstreaming
      · cases hk
        exact Nat.lt_succ_self _

end Quiet

section Recoveries

variable {b : ℕ → Bool} {s s' : SessionHolder} {o : ℕ}

/-- A recovery asks for a position that the session's output has reached. -/
def SessionHolder.Within (s : SessionHolder) (r : Recovery) : Prop :=
  r.position ≤ positionOf s.wires r.session

theorem recoveries_wired (hs : s.Wired) {recoveries : List Recovery}
    (hwithin : ∀ r ∈ recoveries, s.Within r) : { s with recoveries := recoveries }.Wired :=
  fade_wired hs (fun _ w hw => ⟨w, hw, .refl w⟩) rfl (fun _ ho => ho) (fun _ hk => hk)
    (fun _ hd => hd) hs.quiet rfl rfl hwithin

theorem more_within (hs : s.Wired) {r : Recovery} (hr : s.Within r) :
    ∀ r' ∈ s.recoveries ++ [r], s.Within r' := by
  intro r' hr'
  rcases List.mem_append.mp hr' with hold | hnew
  · exact hs.positions r' hold
  · rw [List.mem_singleton.mp hnew]
    exact hr

theorem proceed_wired (hs : s.Wired) {r : Recovery} (hr : s.Within r) : (s.proceed r).Wired := by
  rw [SessionHolder.proceed]
  split
  · exact hs
  next h hh =>
    split_ifs
    · exact recoveries_wired hs (more_within hs hr)
    · exact hs
    · refine fade_wired hs (fun p w' hw' => ?_) ?_ (fun _ ho => ho) (fun _ hk => hk)
        (fun _ hd => hd) (fun hnone p (hp : p ∈ s.sessions) w' hw' => ?_) rfl rfl
          (more_within hs hr)
      · obtain ⟨g', hg', rfl⟩ := wires_get.mp hw'
        obtain ⟨g, hg, rfl⟩ := (held_update g').mp hg'
        refine ⟨g.wire, wires_of_held hg, ?_⟩
        split_ifs
        · rw [wire_syncFlow]
          exact ⟨rfl, rfl, rfl, rfl, rfl, fun hstreaming => (by cases hstreaming), id⟩
        · exact .refl _
      · rw [wires_length, wires_length]
        exact length_update
      · obtain ⟨g', hg', rfl⟩ := wires_get.mp hw'
        obtain ⟨g, hg, rfl⟩ := (held_update g').mp hg'
        split_ifs
        · rw [wire_syncFlow]
          rfl
        · exact hs.quiet hnone p hp g.wire (wires_of_held hg)

theorem isSafePosition_bound {position : ℤ} {outputPosition : ℕ}
    (hle : ¬ (outputPosition : ℤ) < position) : position.toNat ≤ outputPosition := by
  omega

theorem attachPresentation_wired (hs : s.Wired) (id : ℕ) (sessionId : Str) (position : ℤ)
    (socket : ℕ) : (s.attachPresentation id sessionId position socket).Wired := by
  rw [SessionHolder.attachPresentation]
  split
  · exact recoveries_wired hs (more_within hs (Nat.zero_le _))
  next o h hget =>
    split_ifs with hinvalid
    · exact recoveries_wired hs (more_within hs (Nat.zero_le _))
    · refine proceed_wired hs ?_
      change position.toNat ≤ positionOf s.wires o
      rw [positionOf_eq (wires_of_held (get_mem hget).2.1)]
      exact isSafePosition_bound (not_or.mp hinvalid).2

def answerOf (o : ℕ) (h : HeldSession) (id requested : ℕ) (error : Option Str)
    (chunks : List (Chunk UInt8)) : List Outgoing :=
  [⟨some o, requested, .result id (.attached h.record (max requested h.bufferedFrom) error)⟩] ++
    dataOf o h.sessionId chunks ++ endOf o h

theorem answerOf_session {h : HeldSession} {id requested : ℕ} {error : Option Str}
    {chunks : List (Chunk UInt8)} :
    ∀ f ∈ answerOf o h id requested error chunks, f.session = some o := by
  intro f hf
  rcases List.mem_append.mp hf with hf | hf
  · rcases List.mem_cons.mp hf with rfl | hf
    · rfl
    · obtain ⟨c, -, rfl⟩ := List.mem_map.mp hf
      rfl
  · rw [endOf] at hf
    split at hf
    · rw [List.mem_singleton.mp hf]
    · cases hf

theorem presentationOf_session (o : ℕ) (sessionId : Str) (total offset : ℕ) (parts : List Bytes) :
    ∀ f ∈ presentationOf o sessionId total offset parts, f.session = some o := by
  induction parts generalizing offset with
  | nil => exact fun f hf => (by cases hf)
  | cons part parts ih =>
    intro f hf
    rcases List.mem_cons.mp hf with rfl | hf
    · rfl
    · exact ih _ f hf

theorem sendAttached_wires {h g : HeldSession} (hg : s.held[o]? = some g) (hwire : g.wire = h.wire)
    (id requested : ℕ) (error : Option Str) (chunks : List (Chunk UInt8)) :
    (s.sendAttached b o h id requested error chunks).wires =
        s.wires.set o { h.wire with streaming := true } ∧
      (s.sendAttached b o h id requested error chunks).sent =
        s.sent ++ s.framesOf (answerOf o h id requested error chunks) ∧
      (s.sendAttached b o h id requested error chunks).sessions = s.sessions ∧
      (s.sendAttached b o h id requested error chunks).attached = s.attached ∧
      (s.sendAttached b o h id requested error chunks).destroyed = s.destroyed ∧
      (s.sendAttached b o h id requested error chunks).nextSocket = s.nextSocket := by
  have hanswered := sendFor_sends (b := b) s (some o) requested
    (.result id (.attached h.record (max requested h.bufferedFrom) error))
  have hreplayed := hanswered.trans (sendRing_sends (b := b) _ o h.sessionId chunks)
  obtain ⟨g', hg', hcalm⟩ : ∃ g', (SessionHolder.sendRing b (SessionHolder.sendFor b s
      (some o) requested (.result id (.attached h.record (max requested h.bufferedFrom) error))) o
        h.sessionId chunks).held[o]? = some g' ∧ g'.calm = g.calm := by
    have hheld := hreplayed.held o
    rw [hg] at hheld
    exact Option.map_eq_some_iff.mp hheld
  have hended := sendEnded_sends (b := b) (SessionHolder.update (SessionHolder.sendRing
    b (SessionHolder.sendFor b s (some o) requested (.result id (.attached h.record
      (max requested h.bufferedFrom) error))) o h.sessionId chunks) o
        fun h => { h with streaming := true }) o h
  have hframes : (SessionHolder.update (SessionHolder.sendRing b (SessionHolder.sendFor
      b s (some o) requested (.result id (.attached h.record
        (max requested h.bufferedFrom) error))) o h.sessionId chunks) o
          fun h => { h with streaming := true }).framesOf (endOf o h) = s.framesOf (endOf o h) := by
    rw [SessionHolder.framesOf, SessionHolder.framesOf, ← hreplayed.attached,
      ← hreplayed.destroyed]
    rfl
  rw [SessionHolder.sendAttached]
  refine ⟨?_, ?_, ?_, ?_, ?_, ?_⟩
  · rw [hended.wires, wires_update hg', hreplayed.wires]
    have hsame : HeldSession.wire { g' with streaming := true } =
        { h.wire with streaming := true } := by
      have hwire' := (wire_calm hcalm).trans hwire
      exact congrArg (fun w : Wire => { w with streaming := true }) hwire'
    rw [hsame]
  · rw [hended.sent, hframes, answerOf]
    change (SessionHolder.sendRing b _ o h.sessionId chunks).sent ++ _ = _
    rw [hreplayed.sent, List.append_assoc, ← framesOf_append]
  · exact hended.sessions.trans hreplayed.sessions
  · exact hended.attached.trans hreplayed.attached
  · exact hended.destroyed.trans hreplayed.destroyed
  · exact hended.nextSocket.trans hreplayed.nextSocket

theorem read_answerOf {strict : Bool} {r : Reading} {h : HeldSession} {socket id requested : ℕ}
    {error : Option Str} {chunks : List (Chunk UInt8)}
    (hlaid : LaidOut (max requested h.bufferedFrom) chunks h.outputPosition)
    (hcontent : content chunks = h.stream.drop (max requested h.bufferedFrom)) :
    read strict h.stream r ((answerOf o h id requested error chunks).map (Outgoing.frame socket)) =
      some (if h.exit = none then .upTo h.outputPosition else .closed) := by
  have hfirst : advance strict h.stream r (Outgoing.frame socket ⟨some o, requested,
      .result id (.attached h.record (max requested h.bufferedFrom) error)⟩) =
        some (.upTo (max requested h.bufferedFrom)) := if_pos rfl
  have hanswer : read strict h.stream r (([⟨some o, requested, .result id (.attached h.record
      (max requested h.bufferedFrom) error)⟩] : List Outgoing).map (Outgoing.frame socket)) =
        some (.upTo (max requested h.bufferedFrom)) := by
    rw [List.map_singleton, read_cons, hfirst]
    rfl
  have hpart : content chunks <+: h.stream.drop (max requested h.bufferedFrom) := by
    rw [hcontent]
  have hring : read strict h.stream (.upTo (max requested h.bufferedFrom))
      ((dataOf o h.sessionId chunks).map (Outgoing.frame socket)) = some (.upTo h.outputPosition) :=
    read_chunks o socket h.sessionId hlaid hpart
  rw [answerOf, List.map_append, List.map_append, read_append, read_append, hanswer]
  simp only [Option.bind_some, hring]
  rcases hexit : h.exit with _ | exit
  · rw [endOf, hexit]
    rfl
  · have hclose : advance strict h.stream (.upTo h.outputPosition) (Outgoing.frame socket
        ⟨some o, 0, .exit h.sessionId h.outputPosition exit⟩) = some .closed := if_pos rfl
    rw [endOf, hexit, if_neg (by simp)]
    change read strict h.stream (.upTo h.outputPosition) [_] = _
    rw [read_cons, hclose]
    rfl

theorem ringFrom_eq {h : HeldSession} (hkept : h.wire.Kept) (start : ℕ) :
    h.ringFrom start = cut start h.ring.live := by
  rw [HeldSession.ringFrom, cut]
  have hfilter : (h.ring.live.filter fun c => start - c.position < c.bytes.length) =
      h.ring.live.filter fun c => start < c.stop := by
    refine List.filter_congr fun c hc => ?_
    have hpos := List.length_pos_iff.mpr (hkept.filled c hc)
    rw [decide_eq_decide, Chunk.stop]
    omega
  rw [hfilter]
  refine List.map_congr_left fun c _ => ?_
  rw [Chunk.after]
  congr 1
  omega

theorem cut_kept {h : HeldSession} (hkept : h.wire.Kept) {requested : ℕ}
    (hle : requested ≤ h.outputPosition) :
    LaidOut (max requested h.bufferedFrom) (cut (max requested h.bufferedFrom) h.ring.live)
        h.outputPosition ∧
      content (cut (max requested h.bufferedFrom) h.ring.live) =
        h.stream.drop (max requested h.bufferedFrom) := by
  have hlaid : LaidOut h.bufferedFrom h.ring.live h.outputPosition := hkept.laid
  have hlength := hlaid.length
  have hfirst : h.bufferedFrom ≤ max requested h.bufferedFrom := Nat.le_max_right _ _
  obtain ⟨hcut, hcontent⟩ := hlaid.cut hfirst (Nat.max_le.mpr ⟨hle, by omega⟩)
  refine ⟨hcut, hcontent.trans ?_⟩
  have hring : content h.ring.live = h.stream.drop h.bufferedFrom := hkept.content
  rw [hring, List.drop_drop, Nat.add_sub_cancel' hfirst]

theorem answer_wired (hs : s.Wired) {h g : HeldSession} (hg : s.held[o]? = some g)
    (hwire : g.wire = h.wire) (hattached : s.attached ≠ none) {id requested : ℕ}
    (hle : requested ≤ h.outputPosition) (hpositions : ∀ r ∈ s.recoveries, s.Within r)
    (error : Option Str) {chunks : List (Chunk UInt8)}
    (hchunks : chunks = cut (max requested h.bufferedFrom) h.ring.live) :
    (s.sendAttached b o h id requested error chunks).Wired := by
  have hw : s.wires[o]? = some h.wire := by
    rw [wires_of_held hg, hwire]
  have hkept := hs.kept o h.wire hw
  obtain ⟨hlaid, hcontent⟩ := cut_kept hkept hle
  rw [← hchunks] at hlaid hcontent
  obtain ⟨hwires, hsent, hsessions, hattached', hdestroyed, hnext⟩ :=
    sendAttached_wires (b := b) hg hwire id requested error chunks
  have hrecoveries := sendAttached_recoveries (b := b) s o h id requested error chunks
  refine deliver_wired _ _ hs hw hwires hsent hsessions hattached' hdestroyed hnext (fun r hr _ => ?_)
    (fun r hr heq => ?_) answerOf_session ?_ (fun hnone => absurd hnone hattached)
      (List.prefix_refl _) (fun hexit => hexit) fun socket _ _ r _ _ => ?_
  · rw [hrecoveries] at hr
    exact hr
  · rw [hrecoveries] at hr
    subst heq
    have hle := within_wire (hpositions r hr) hw
    exact hle
  · exact ⟨hkept.laid, hkept.content, hkept.position, hkept.filled, hkept.quiet⟩
  · refine ⟨_, read_answerOf hlaid hcontent, fun hclosed => ?_, fun _ n hn => ?_,
      fun _ _ hidle => ?_⟩
    · split_ifs at hclosed with hexit
      exact hexit
    · split_ifs at hn
      cases hn
      rfl
    · split_ifs at hidle

theorem presentation_wired (hs : s.Wired) {h : HeldSession} (hh : s.held[o]? = some h)
    (sessionId : Str) (total offset : ℕ) (parts : List Bytes) :
    (s.sendPresentation b o sessionId total offset parts).Wired := by
  have hsends := sendPresentation_sends (b := b) s o sessionId total offset parts
  have hw := wires_of_held hh
  refine deliver_wired h.wire _ hs hw ?_ hsends.sent hsends.sessions hsends.attached
    hsends.destroyed hsends.nextSocket (fun r hr _ => ?_) (fun r hr heq => ?_)
      (presentationOf_session o sessionId total offset parts) (hs.kept o h.wire hw)
        (fun hnone ho => hs.quiet hnone o ho h.wire hw) (List.prefix_refl _) id
          fun socket _ _ r hfollows hclosed =>
            ⟨r, read_presentation o socket sessionId total offset parts, hclosed, hfollows⟩
  · rw [hsends.wires]
    refine List.ext_getElem? fun p => ?_
    rw [List.getElem?_set]
    split_ifs with heq hlt
    · rw [← heq, hw]
    · exact absurd (List.getElem?_eq_some_iff.mp hw).1 hlt
    · rfl
  · rw [hsends.recoveries] at hr
    exact hr
  · rw [hsends.recoveries] at hr
    subst heq
    exact within_wire (hs.positions r hr) hw

theorem attach_wired (hs : s.Wired) (hattached : s.attached ≠ none) {id : ℕ} {sessionId : Str}
    {position : ℤ} (hattach : s.attach b id sessionId position = .ok s') : s'.Wired := by
  simp only [SessionHolder.attach, bind_ok, demand_ok, refuseIf_ok, pure_ok] at hattach
  obtain ⟨⟨o, h⟩, hget, _, -, _, hle, rfl⟩ := hattach
  exact answer_wired hs (get_mem hget).2.1 rfl hattached (isSafePosition_bound hle) hs.positions
    none rfl

theorem finish_wired (hs : s.Wired) {r : Recovery} (hr : s.Within r) (recovery : Bytes)
    (error : Option Str) : (s.finish b r recovery error).Wired := by
  rw [SessionHolder.finish]
  split
  · exact hs
  next h hh =>
    have hsync : ∀ flow : Bool, ∀ g : HeldSession,
        (HeldSession.syncFlow flow { g with recovering := false }).wire = g.wire :=
      fun flow g => wire_syncFlow flow _
    dsimp only
    split_ifs with hgone
    · exact update_wired hs (hsync _)
    · refine update_wired ?_ (hsync _)
      have hpresented := presentation_wired (b := b) hs hh h.sessionId recovery.length 0
        (piecesOf dataFrameBytes recovery.length recovery)
      have hsends := sendPresentation_sends (b := b) s r.session h.sessionId
        recovery.length 0 (piecesOf dataFrameBytes recovery.length recovery)
      have hheld := hsends.held r.session
      rw [hh] at hheld
      obtain ⟨g, hg, hcalm⟩ := Option.map_eq_some_iff.mp hheld
      have hattached : s.attached ≠ none := by
        rw [not_ne_iff.mp (not_or.mp hgone).1]
        exact Option.some_ne_none _
      have hle : r.position ≤ h.outputPosition := within_wire hr (wires_of_held hh)
      refine answer_wired hpresented hg (wire_calm hcalm) ?_ hle hpresented.positions error
        (ringFrom_eq (hs.kept r.session h.wire (wires_of_held hh)) _)
      rw [hsends.attached]
      exact hattached

theorem recover_wired (hs : s.Wired) (i : ℕ) (pinned : Except Str (ℕ × Bytes)) :
    (s.recover b i pinned).Wired := by
  rw [SessionHolder.recover]
  split
  · exact hs
  next r hr =>
    have hwithin : s.Within r := hs.positions r (List.mem_of_getElem? hr)
    have htaken : { s with recoveries := s.recoveries.eraseIdx i }.Wired :=
      recoveries_wired hs fun r' hr' => hs.positions r' (List.mem_of_mem_eraseIdx hr')
    have hmoved : ∀ stage, { s with recoveries := s.recoveries.eraseIdx i ++
        [{ r with stage := stage }] }.Wired := fun stage =>
      recoveries_wired htaken (more_within htaken hwithin)
    have hfinish : ∀ recovery error, (SessionHolder.finish b
        { s with recoveries := s.recoveries.eraseIdx i } r recovery error).Wired :=
      fun recovery error => finish_wired htaken hwithin recovery error
    dsimp only
    split
    · split_ifs
      · exact send_wired htaken _
      · exact htaken
    · exact htaken
    · split_ifs
      · exact hs
      · exact proceed_wired htaken hwithin
    · split_ifs
      · exact hs
      · exact hmoved _
      · exact hfinish _ _
      · exact hmoved _
    · split
      · exact hfinish _ _
      · split_ifs
        · exact hfinish _ _
        · exact hfinish _ _

end Recoveries

section Output

variable {b : ℕ → Bool} {s s' : SessionHolder} {o : ℕ}

theorem wire_keep {g h : HeldSession} (hwire : g.wire = h.wire) (part : Bytes) :
    (g.keep part).wire = (h.keep part).wire := by
  have hring := congrArg Wire.ring hwire
  have hposition := congrArg Wire.outputPosition hwire
  have hstream := congrArg Wire.stream hwire
  simp only [HeldSession.wire] at hring hposition hstream
  have hrest := hwire
  simp only [HeldSession.wire, Wire.mk.injEq] at hrest
  obtain ⟨hid, -, -, -, hstreaming, hexit, hlistens, -⟩ := hrest
  simp only [HeldSession.wire, HeldSession.keep, hring, hposition, hstream, hid, hstreaming, hexit,
    hlistens]

theorem keep_kept {h : HeldSession} (hkept : h.wire.Kept) (hlistens : h.dataSubscription = true)
    {part : Bytes} (hpart : part ≠ []) : (h.keep part).wire.Kept := by
  have hlaid : LaidOut h.bufferedFrom h.ring.live h.outputPosition := hkept.laid
  have hcontent : content h.ring.live = h.stream.drop h.bufferedFrom := hkept.content
  have hposition : h.outputPosition = h.stream.length := hkept.position
  have hlength := hlaid.length
  obtain ⟨hlive, -, -⟩ := push_live h.ring ⟨h.outputPosition, part⟩
  have hlonger := hlaid.concat (c := ⟨h.outputPosition, part⟩) rfl
  obtain ⟨first, hfrom, hstop, hdropped, hdropcontent, hhead⟩ := hlonger.drop
    (BoundedChunkQueue.evictions h.ring.maxBytes h.ring.retention
      (h.ring.live ++ [⟨h.outputPosition, part⟩])
        (content (h.ring.live ++ [⟨h.outputPosition, part⟩])).length)
  rw [← hlive] at hdropped hdropcontent hhead
  have hfirst : (((h.ring.push ⟨h.outputPosition, part⟩).first.map Chunk.position).getD
      (h.outputPosition + part.length)) = first := by
    rw [BoundedChunkQueue.first]
    rcases hempty : (h.ring.push ⟨h.outputPosition, part⟩).live with _ | ⟨c, cs⟩
    · rw [hempty] at hdropped
      exact hdropped.symm
    · rw [hempty] at hhead
      exact hhead c rfl
  constructor
  · change LaidOut (((h.ring.push ⟨h.outputPosition, part⟩).first.map Chunk.position).getD
      (h.outputPosition + part.length)) _ (h.outputPosition + part.length)
    rw [hfirst]
    exact hdropped
  · change content (h.ring.push ⟨h.outputPosition, part⟩).live = (h.stream ++ part).drop
      (((h.ring.push ⟨h.outputPosition, part⟩).first.map Chunk.position).getD
        (h.outputPosition + part.length))
    rw [hfirst, hdropcontent, content_append, content_singleton, hcontent,
      ← List.drop_append_of_le_length (by omega), List.drop_drop, Nat.add_sub_cancel' hfrom]
  · change h.outputPosition + part.length = (h.stream ++ part).length
    rw [List.length_append, hposition]
  · intro c hc
    change c ∈ (h.ring.push ⟨h.outputPosition, part⟩).live at hc
    rw [hlive] at hc
    rcases List.mem_append.mp (List.mem_of_mem_drop hc) with hold | hnew
    · exact hkept.filled c hold
    · rw [List.mem_singleton.mp hnew]
      exact hpart
  · intro hexit
    have hquiet := hkept.quiet hexit
    change h.dataSubscription = false at hquiet
    rw [hlistens] at hquiet
    cases hquiet

theorem read_part {h : HeldSession} (hkept : h.wire.Kept) (hopen : h.exit = none)
    (hstreaming : h.streaming = true) {registered : Bool} {r : Reading}
    (hfollows : h.wire.Follows registered r) (hclosed : r = .closed → h.wire.exit ≠ none)
    {socket : ℕ} {part : Bytes} :
    ∃ r', read registered (h.stream ++ part) r (([⟨some o, 0, .data h.sessionId h.outputPosition
        part⟩] : List Outgoing).map (Outgoing.frame socket)) = some r' ∧
      (r' = .closed → (h.keep part).wire.exit ≠ none) ∧
      (h.keep part).wire.Follows registered r' := by
  have hposition : h.outputPosition = h.stream.length := hkept.position
  rw [List.map_singleton, read_cons]
  cases r with
  | idle =>
    have hlenient : registered = false :=
      Bool.eq_false_iff.mpr fun hmem => hfollows.opened hstreaming hmem rfl
    rw [hlenient]
    exact ⟨.idle, rfl, fun heq => (by cases heq), fun _ n hn => (by cases hn),
      fun _ hmem => (by cases hmem)⟩
  | upTo n =>
    have hn : n = h.outputPosition := hfollows.current hstreaming n rfl
    have hpart : part <+: (h.stream ++ part).drop n := by
      rw [hn, List.drop_append_of_le_length (Nat.le_of_eq hposition), hposition, List.drop_length,
        List.nil_append]
    have hnext : advance registered (h.stream ++ part) (.upTo n) (Outgoing.frame socket
        ⟨some o, 0, .data h.sessionId h.outputPosition part⟩) = some (.upTo (n + part.length)) :=
      if_pos ⟨hn.symm, hpart⟩
    rw [hnext]
    refine ⟨.upTo (n + part.length), rfl, fun heq => (by cases heq), fun _ m hm => ?_,
      fun _ _ heq => (by cases heq)⟩
    cases hm
    rw [hn]
    rfl
  | closed => exact absurd hopen (hclosed rfl)

theorem outputPart_wired (hs : s.Wired) {h : HeldSession} (hh : s.held[o]? = some h)
    (hlistens : h.dataSubscription = true) {part : Bytes} (hpart : part ≠ []) :
    (SessionHolder.outputPart b o s part).Wired := by
  have hw := wires_of_held hh
  have hkept := hs.kept o h.wire hw
  have hkept' := keep_kept hkept hlistens hpart
  obtain ⟨hwires, hsessions, hattached, hdestroyed, hnext, hrecoveries, hsent⟩ :=
    observePresentation_wires (s := s) (o := o) part.length
  obtain ⟨g, hg, hgwire⟩ : ∃ g, (s.observePresentation o part.length).held[o]? = some g ∧
      g.wire = h.wire := by
    have hobserved := hw
    rw [← hwires] at hobserved
    exact wires_get.mp hobserved
  have hkeep : ((s.observePresentation o part.length).update o (HeldSession.keep part)).wires =
      s.wires.set o (h.keep part).wire := by
    rw [wires_update hg, hwires, wire_keep hgwire]
  have hopen : h.exit = none := by
    by_contra hexit
    have hquiet : h.dataSubscription = false := hkept.quiet hexit
    rw [hlistens] at hquiet
    cases hquiet
  have hpositions : ∀ r ∈ s.recoveries, r.session = o →
      r.position ≤ (h.keep part).wire.outputPosition := by
    intro r hr heq
    subst heq
    exact (within_wire (hs.positions r hr) hw).trans (Nat.le_add_right _ _)
  have hquiet : s.attached = none → o ∈ s.sessions → (h.keep part).wire.streaming = false :=
    fun hnone ho => hs.quiet hnone o ho h.wire hw
  rw [SessionHolder.outputPart, hh]
  dsimp only
  split_ifs with hto
  · have hsends := sendFor_sends (b := b)
      ((s.observePresentation o part.length).update o (HeldSession.keep part)) (some o) 0
        (.data h.sessionId h.outputPosition part)
    refine deliver_wired _ [⟨some o, 0, .data h.sessionId h.outputPosition part⟩] hs hw
      (hsends.wires.trans hkeep) ?_ (hsends.sessions.trans hsessions)
        (hsends.attached.trans hattached) (hsends.destroyed.trans hdestroyed)
          (hsends.nextSocket.trans hnext) (fun r hr _ => ?_) (fun r hr heq => ?_)
            (fun f hf => by rw [List.mem_singleton.mp hf]) hkept' hquiet (List.prefix_append _ _)
              (fun hexit => hexit) fun socket _ _ r hfollows hclosed => ?_
    · refine hsends.sent.trans ?_
      have hframes : ((s.observePresentation o part.length).update o
          (HeldSession.keep part)).framesOf [⟨some o, 0, .data h.sessionId h.outputPosition part⟩] =
            s.framesOf [⟨some o, 0, .data h.sessionId h.outputPosition part⟩] := by
        rw [SessionHolder.framesOf, SessionHolder.framesOf, ← hattached, ← hdestroyed]
        rfl
      rw [hframes]
      exact congrArg (· ++ _) hsent
    · exact (hsends.recoveries.trans hrecoveries) ▸ hr
    · exact hpositions r ((hsends.recoveries.trans hrecoveries) ▸ hr) heq
    · exact read_part hkept hopen hto.1 hfollows hclosed
  · refine deliver_wired _ [] hs hw hkeep ?_ hsessions hattached hdestroyed hnext
      (fun r hr _ => hrecoveries ▸ hr) (fun r hr heq => hpositions r (hrecoveries ▸ hr) heq)
        (fun f hf => (by cases hf)) hkept' hquiet (List.prefix_append _ _) (fun hexit => hexit)
          fun socket hsocket _ r hfollows hclosed => ⟨r, rfl, hclosed, fun hstreaming => ?_,
            fun hstreaming => ?_⟩
    · rw [framesOf_nil, List.append_nil]
      exact hsent
    · exact absurd ⟨hstreaming, by rw [hsocket]; exact Option.some_ne_none _⟩ hto
    · exact absurd ⟨hstreaming, by rw [hsocket]; exact Option.some_ne_none _⟩ hto

theorem outputPart_listens {h : HeldSession} (hh : s.held[o]? = some h) (part : Bytes) :
    ∃ h', (SessionHolder.outputPart b o s part).held[o]? = some h' ∧
      h'.dataSubscription = h.dataSubscription := by
  have hobserved := (observePresentation_wires (s := s) (o := o) part.length).1
  obtain ⟨g, hg, hgwire⟩ : ∃ g, (s.observePresentation o part.length).held[o]? = some g ∧
      g.wire = h.wire := by
    have hw := wires_of_held hh
    rw [← hobserved] at hw
    exact wires_get.mp hw
  have hkept : ((s.observePresentation o part.length).update o (HeldSession.keep part)).held[o]? =
      some (g.keep part) := (held_update _).mpr ⟨g, hg, if_pos rfl⟩
  have hsame : (g.keep part).dataSubscription = h.dataSubscription :=
    congrArg Wire.dataSubscription hgwire
  rw [SessionHolder.outputPart, hh]
  dsimp only
  split_ifs
  · have hsends := sendFor_sends (b := b)
      ((s.observePresentation o part.length).update o (HeldSession.keep part)) (some o) 0
        (.data h.sessionId h.outputPosition part)
    have hw := wires_of_held hkept
    rw [← hsends.wires] at hw
    obtain ⟨h', hh', hwire⟩ := wires_get.mp hw
    exact ⟨h', hh', (congrArg Wire.dataSubscription hwire).trans hsame⟩
  · exact ⟨_, hkept, hsame⟩

theorem outputParts_wired (hs : s.Wired) {h : HeldSession} (hh : s.held[o]? = some h)
    (hlistens : h.dataSubscription = true) {parts : List Bytes} (hparts : ∀ part ∈ parts, part ≠ []) :
    (parts.foldl (SessionHolder.outputPart b o) s).Wired := by
  induction parts generalizing s h with
  | nil => exact hs
  | cons part parts ih =>
    obtain ⟨hpart, hparts⟩ := List.forall_mem_cons.mp hparts
    obtain ⟨h', hh', hsame⟩ := outputPart_listens (b := b) hh part
    exact ih (outputPart_wired hs hh hlistens hpart) hh' (hsame.trans hlistens) hparts

theorem piecesOf_filled {max : ℕ} (hmax : 0 < max) (fuel : ℕ) (bytes : Bytes) :
    ∀ part ∈ piecesOf max fuel bytes, part ≠ [] := by
  induction fuel generalizing bytes with
  | zero => exact fun _ hpart => (by cases hpart)
  | succ fuel ih =>
    intro part hpart
    rw [piecesOf] at hpart
    split_ifs at hpart with hempty
    · cases hpart
    · rcases List.mem_cons.mp hpart with rfl | hrest
      · exact fun htake => (List.take_eq_nil_iff.mp htake).elim (fun hzero => by omega) hempty
      · exact ih _ part hrest

theorem output_wired (hs : s.Wired) (bytes : Bytes) : (s.output b o bytes).Wired := by
  rw [SessionHolder.output]
  split_ifs with hlistens
  · rcases hh : s.held[o]? with _ | h
    · rw [hh] at hlistens
      cases hlistens
    · rw [hh] at hlistens
      exact outputParts_wired hs hh hlistens (piecesOf_filled (by decide) _ _)
  · exact hs

theorem gone_kept {h : HeldSession} (hkept : h.wire.Kept) (exit : ExitRecord) :
    (HeldSession.release { h with exit := some exit }).wire.Kept :=
  ⟨hkept.laid, hkept.content, hkept.position, hkept.filled, fun _ => rfl⟩

theorem gone_wired (hs : s.Wired) {h : HeldSession} (hh : s.held[o]? = some h)
    (exit : ExitRecord) :
    (s.update o fun h => HeldSession.release { h with exit := some exit }).Wired := by
  have hw := wires_of_held hh
  refine deliver_wired _ [] hs hw (wires_update hh) ?_ rfl rfl rfl rfl (fun r hr _ => hr)
    (fun r hr heq => ?_) (fun f hf => (by cases hf)) (gone_kept (hs.kept o h.wire hw) exit)
      (fun hnone ho => hs.quiet hnone o ho h.wire hw) (List.prefix_refl _)
        (fun _ hnone => (by cases hnone)) fun socket _ _ r hfollows _ =>
          ⟨r, rfl, fun _ hnone => (by cases hnone), hfollows.current, hfollows.opened⟩
  · rw [framesOf_nil, List.append_nil]
    rfl
  · subst heq
    have hle := within_wire (hs.positions r hr) hw
    exact hle

theorem toldGone_wired (hs : s.Wired) {h : HeldSession} (hh : s.held[o]? = some h)
    (hopen : h.exit = none) (hstreaming : h.streaming = true) (exit : ExitRecord) :
    (SessionHolder.sendExit b (s.update o fun h =>
      HeldSession.release { h with exit := some exit }) o h exit).Wired := by
  have hw := wires_of_held hh
  have hsends := sendFor_sends (b := b) (s.update o fun h =>
    HeldSession.release { h with exit := some exit }) (some o) 0
      (.exit h.sessionId h.outputPosition exit)
  refine deliver_wired _ [⟨some o, 0, .exit h.sessionId h.outputPosition exit⟩] hs hw
    (hsends.wires.trans (wires_update hh)) hsends.sent hsends.sessions hsends.attached
      hsends.destroyed hsends.nextSocket (fun r hr _ => ?_) (fun r hr heq => ?_)
        (fun f hf => by rw [List.mem_singleton.mp hf]) (gone_kept (hs.kept o h.wire hw) exit)
          (fun hnone ho => hs.quiet hnone o ho h.wire hw) (List.prefix_refl _)
            (fun _ hnone => (by cases hnone)) fun socket _ _ r hfollows hclosed => ?_
  · exact hsends.recoveries ▸ hr
  · subst heq
    have hle := within_wire (hs.positions r (hsends.recoveries ▸ hr)) hw
    exact hle
  · rw [List.map_singleton, read_cons]
    cases r with
    | idle =>
      have hlenient : decide (o ∈ s.sessions) = false :=
        Bool.eq_false_iff.mpr fun hmem => hfollows.opened hstreaming hmem rfl
      rw [hlenient]
      exact ⟨.idle, rfl, fun heq => (by cases heq), fun _ n hn => (by cases hn),
        fun _ hmem => (by cases hmem)⟩
    | upTo n =>
      have hn : n = h.outputPosition := hfollows.current hstreaming n rfl
      have hend : advance (o ∈ s.sessions) h.stream (.upTo n) (Outgoing.frame socket
          ⟨some o, 0, .exit h.sessionId h.outputPosition exit⟩) = some .closed := if_pos hn.symm
      refine ⟨.closed, ?_, fun _ hnone => (by cases hnone), fun _ m hm => (by cases hm),
        fun _ _ heq => (by cases heq)⟩
      change (advance _ h.stream _ _).bind _ = _
      rw [hend]
      rfl
    | closed => exact absurd hopen (hclosed rfl)

theorem exited_wired (hs : s.Wired) (exit : ExitRecord) : (s.exited b o exit).Wired := by
  rw [SessionHolder.exited]
  split
  · exact hs
  next h hh =>
    split
    · exact hs
    · exact hs
    · exact exitIfIdle_wired (gone_wired hs hh _)
    · split_ifs with hgone hto
      · exact hs
      · exact exitIfIdle_wired (toldGone_wired hs hh (Option.not_isSome_iff_eq_none.mp hgone)
          hto.1 exit)
      · exact exitIfIdle_wired (gone_wired hs hh exit)

end Output

section Steps

variable {b : ℕ → Bool} {s s' : SessionHolder} {o : ℕ}

theorem register_wired (hs : s.Wired) {session : HeldSession} (hkept : session.wire.Kept)
    (hsilent : session.streaming = false) : (s.register session).Wired := by
  have hcases : ∀ (p : ℕ) w, (s.register session).wires[p]? = some w →
      s.wires[p]? = some w ∧ p < s.held.length ∨ p = s.held.length ∧ w = session.wire := by
    intro p w hw
    obtain ⟨h, hh, rfl⟩ := wires_get.mp hw
    rcases held_register.mp hh with ⟨hold, hlt⟩ | ⟨rfl, rfl⟩
    · exact .inl ⟨wires_of_held hold, hlt⟩
    · exact .inr ⟨rfl, rfl⟩
  have hfresh : ∀ socket, framesTo s.sent socket s.held.length = [] := by
    intro socket
    refine List.filter_eq_nil_iff.mpr fun f hf heq => ?_
    have hlt := hs.known f hf s.held.length (of_decide_eq_true heq).2
    rw [wires_length] at hlt
    exact Nat.lt_irrefl _ hlt
  constructor
  · intro p w hw
    rcases hcases p w hw with ⟨hold, -⟩ | ⟨-, rfl⟩
    · exact hs.kept p w hold
    · exact hkept
  · intro p w hw socket
    rcases hcases p w hw with ⟨hold, hlt⟩ | ⟨rfl, rfl⟩
    · rw [show decide (p ∈ (s.register session).sessions) = decide (p ∈ s.sessions) from
        decide_eq_decide.mpr (mem_register hlt)]
      exact hs.reads p w hold socket
    · change ∃ r, read _ _ _ (framesTo s.sent socket s.held.length) = _ ∧ _
      rw [hfresh]
      refine ⟨.idle, rfl, fun heq => (by cases heq), fun _ _ => ⟨fun hstreaming => ?_,
        fun hstreaming => ?_⟩⟩
      · change session.streaming = true at hstreaming
        rw [hsilent] at hstreaming
        cases hstreaming
      · change session.streaming = true at hstreaming
        rw [hsilent] at hstreaming
        cases hstreaming
  · intro hnone p hp w hw
    rcases hcases p w hw with ⟨hold, hlt⟩ | ⟨-, rfl⟩
    · exact hs.quiet hnone p ((mem_register hlt).mp hp) w hold
    · exact hsilent
  · exact hs.sockets
  · exact hs.attachedSocket
  · intro f hf p hp
    have hlt := hs.known f hf p hp
    rw [wires_length] at hlt ⊢
    rw [SessionHolder.register, List.length_append]
    omega
  · intro r hr
    have hle := hs.positions r hr
    rcases hold : s.wires[r.session]? with _ | w
    · rw [positionOf, hold] at hle
      exact hle.trans (Nat.zero_le _)
    · have hlt := (List.getElem?_eq_some_iff.mp hold).1
      have hsame : (s.register session).wires[r.session]? = s.wires[r.session]? := by
        rw [SessionHolder.wires, SessionHolder.register, List.map_append]
        exact List.getElem?_append_left hlt
      rw [positionOf, hsame]
      exact hle

theorem create_kept (request : SpawnRequest) (error : Option Str) (maxBufferBytes : ℕ)
    (h : 0 < maxBufferBytes) : (HeldSession.create request error maxBufferBytes h).wire.Kept :=
  ⟨rfl, rfl, rfl, fun c hc => (by cases hc), fun hexit => absurd rfl hexit⟩

theorem spawned_wired (hs : s.Wired) (hattached : s.attached ≠ none) (request : SpawnRequest)
    (error : Option Str) (id : ℕ) :
    (SessionHolder.sendFor b (s.register (.create request error s.maxBufferBytes
      s.maxBufferBytes_pos)) (some s.held.length) 0
        (.result id (.spawned ⟨request.sessionId, request.cols, request.rows, 0, 0, none⟩))).Wired := by
  let session := HeldSession.create request error s.maxBufferBytes s.maxBufferBytes_pos
  have hkept : session.wire.Kept := create_kept request error s.maxBufferBytes s.maxBufferBytes_pos
  let silent : HeldSession := { session with streaming := false }
  have hsilent : silent.wire.Kept :=
    ⟨hkept.laid, hkept.content, hkept.position, hkept.filled, hkept.quiet⟩
  have hregistered := register_wired hs hsilent rfl
  have hw : (s.register silent).wires[s.held.length]? = some silent.wire :=
    wires_of_held (held_register.mpr (.inr ⟨rfl, rfl⟩))
  have hsends := sendFor_sends (b := b) (s.register session) (some s.held.length) 0
    (.result id (.spawned ⟨request.sessionId, request.cols, request.rows, 0, 0, none⟩))
  have hwires : (s.register session).wires =
      (s.register silent).wires.set s.held.length session.wire := by
    change (s.held ++ [session]).map HeldSession.wire =
      ((s.held ++ [silent]).map HeldSession.wire).set s.held.length session.wire
    rw [List.map_append, List.map_append, List.set_append_right _ _ (by rw [List.length_map]),
      List.length_map, Nat.sub_self]
    rfl
  refine deliver_wired (s := s.register silent) (w := silent.wire) session.wire
    [⟨some s.held.length, 0, .result id
      (.spawned ⟨request.sessionId, request.cols, request.rows, 0, 0, none⟩)⟩]
    hregistered hw (hsends.wires.trans hwires) hsends.sent hsends.sessions hsends.attached
      hsends.destroyed hsends.nextSocket (fun r hr _ => ?_) (fun r hr heq => ?_)
        (fun f hf => by rw [List.mem_singleton.mp hf]) hkept (fun hnone => absurd hnone hattached)
          (List.prefix_refl _) (fun hexit => absurd rfl hexit) fun socket _ _ r _ _ =>
            ⟨.upTo 0, rfl, fun heq => (by cases heq), fun _ n hn => ?_, fun _ _ heq => (by cases heq)⟩
  · exact hsends.recoveries ▸ hr
  · have hle := within_wire (hregistered.positions r (hsends.recoveries ▸ hr)) (heq ▸ hw)
    exact hle
  · cases hn
    rfl

theorem handle_wired (hs : s.Wired) {socket : ℕ} (hattached : s.attached = some socket)
    {message : ClientMessage} (hhandle : s.handle b socket message = .ok s') : s'.Wired := by
  have hsome : s.attached ≠ none := by
    rw [hattached]
    exact Option.some_ne_none _
  cases message with
  | list id =>
    cases hhandle
    exact send_wired hs _
  | spawn id request spawnError presentationError =>
    simp only [SessionHolder.handle, bind_ok, pure_ok] at hhandle
    obtain ⟨spawned, hspawn, rfl⟩ := hhandle
    obtain ⟨-, rfl⟩ := spawn_ok.mp hspawn
    exact spawned_wired hs hsome request presentationError id
  | attach id sessionId position =>
    rw [SessionHolder.handle] at hhandle
    split_ifs at hhandle
    · cases hhandle
      exact attachPresentation_wired hs _ _ _ _
    · exact attach_wired hs hsome hhandle
  | write sessionId =>
    simp only [SessionHolder.handle, bind_ok, pure_ok] at hhandle
    obtain ⟨_, -, rfl⟩ := hhandle
    exact hs
  | resize sessionId cols rows =>
    simp only [SessionHolder.handle, bind_ok, pure_ok] at hhandle
    obtain ⟨⟨o, h⟩, -, _, -, _, -, rfl⟩ := hhandle
    have hresized : (s.update o fun h => { h with cols := cols, rows := rows }).Wired :=
      update_wired hs fun _ => rfl
    exact observePresentation_wired hresized 0
  | signal sessionId =>
    simp only [SessionHolder.handle, bind_ok, pure_ok] at hhandle
    obtain ⟨_, -, rfl⟩ := hhandle
    exact hs
  | endSession id sessionId =>
    cases hhandle
    exact send_wired (endSession_wired hs sessionId) _
  | endAll id =>
    cases hhandle
    exact close_wired (send_wired hs _) _
  | pause sessionId =>
    simp only [SessionHolder.handle, bind_ok, pure_ok] at hhandle
    obtain ⟨⟨o, h⟩, -, rfl⟩ := hhandle
    exact update_wired hs fun h => wire_syncFlow _ { h with serverPaused := true }
  | resume sessionId =>
    simp only [SessionHolder.handle, bind_ok, pure_ok] at hhandle
    obtain ⟨⟨o, h⟩, -, rfl⟩ := hhandle
    exact update_wired hs fun h => wire_syncFlow _ { h with serverPaused := false }
  | foreground id sessionId title =>
    simp only [SessionHolder.handle, bind_ok, pure_ok] at hhandle
    obtain ⟨_, -, rfl⟩ := hhandle
    exact send_wired hs _
  | drain =>
    simp only [SessionHolder.handle, pure_ok] at hhandle
    subst hhandle
    split_ifs
    · exact close_wired (s := { s with draining := true }) hs _
    · exact hs
  | other id => cases hhandle

theorem receive_wired (hs : s.Wired) (message : ClientMessage) :
    (s.receive b message).Wired := by
  rw [SessionHolder.receive]
  split
  · exact hs
  next socket hattached =>
    rcases hhandle : s.handle b socket message with error | next
    · rcases message.id with _ | id
      · exact hs
      · exact send_wired hs _
    · exact handle_wired hs hattached hhandle

theorem step_wired (hs : s.Wired) (i : SessionHolder.Input) : (s.step b i).Wired := by
  cases i with
  | admitServer version => exact admitServer_wired hs version
  | receive message => exact receive_wired hs message
  | destroyed => exact destroyed_wired hs
  | drained =>
    rw [SessionHolder.step]
    split_ifs
    · exact releaseFlow_wired hs
    · exact hs
  | disconnected => exact disconnected_wired hs
  | output o bytes => exact output_wired hs bytes
  | exited o exit => exact exited_wired hs exit
  | settled i error => exact settled_wired hs i error
  | recover i pinned => exact recover_wired hs i pinned
  | close reason => exact close_wired hs reason
  | ended => exact ended_wired hs

theorem create_wired (maxBufferBytes : ℕ) (h : 0 < maxBufferBytes) :
    (SessionHolder.create maxBufferBytes h).Wired :=
  ⟨fun o w hw => (by cases hw), fun o w hw => (by cases hw), fun _ o ho => (by cases ho),
    fun f hf => (by cases hf), fun k hk => (by cases hk), fun f hf => (by cases hf),
    fun r hr => (by cases hr)⟩

theorem run_wired (hs : s.Wired) (inputs : List SessionHolder.Input) :
    (s.run b inputs).Wired := by
  have hstep : ∀ (s : SessionHolder) (i : SessionHolder.Input), s.Wired →
      (s.step b i).Wired := fun _ i hs => step_wired hs i
  exact Runs.invariant (I := SessionHolder.Wired) hstep hs inputs

end Steps

/-- In every run, the data a server is sent for a session after the answer to its attach are the
session's stream from the answer's position on; the exit announces their end; no data come before
the first answer. -/
theorem attachment_runs (flushed : ℕ → Bool) (maxBufferBytes : ℕ) (hmax : 0 < maxBufferBytes)
    (inputs : List SessionHolder.Input) :
    let s := (SessionHolder.create maxBufferBytes hmax).run flushed inputs
    ∀ (o : ℕ) h, s.held[o]? = some h → ∀ socket : ℕ,
      (∀ before answer after start, framesTo s.sent socket o = before ++ answer :: after →
        answer.opens = some start →
        answer.clamped ∧ ∃ stop, LaidOut start ((upToNext after).filterMap Frame.chunk) stop ∧
          content ((upToNext after).filterMap Frame.chunk) = slice 0 h.stream start stop ∧
          ∀ p ∈ (upToNext after).filterMap Frame.endsAt, p = stop) ∧
      (o ∈ s.sessions →
        (upToNext (framesTo s.sent socket o)).filterMap Frame.chunk = []) := by
  intro s o h hh socket
  have hs : s.Wired := run_wired (create_wired maxBufferBytes hmax) inputs
  obtain ⟨r, hr, -, -⟩ := hs.reads o h.wire (wires_of_held hh) socket
  constructor
  · intro before answer after start heq hopens
    rw [heq] at hr
    exact read_answer hr hopens
  · intro hmem
    rw [decide_eq_true hmem] at hr
    obtain ⟨r', hr'⟩ := upToNext_read hr
    exact read_unopened (upToNext_opens _) hr'

def attachedLate : List SessionHolder.Input :=
  [.admitServer 2, .receive (.spawn 0 ⟨js "a", 80, 24⟩ none none), .output 0 [1, 2, 3],
    .receive (.attach 1 (js "a") 1)]

def alwaysFlushed (_ : ℕ) : Bool := true

theorem attachment_runs_late : ∃ stop,
    LaidOut 1 ((upToNext [⟨0, some 0, 0, .data (js "a") 1 [2, 3]⟩]).filterMap Frame.chunk) stop ∧
      content ((upToNext [⟨0, some 0, 0, .data (js "a") 1 [2, 3]⟩]).filterMap Frame.chunk) =
        slice 0 [1, 2, 3] 1 stop ∧
      ∀ p ∈ (upToNext [⟨0, some 0, 0, .data (js "a") 1 [2, 3]⟩]).filterMap Frame.endsAt, p = stop :=
  ((attachment_runs alwaysFlushed 8 (by decide) attachedLate 0 _ rfl 0).1
    [⟨0, some 0, 0, .result 0 (.spawned ⟨js "a", 80, 24, 0, 0, none⟩)⟩,
      ⟨0, some 0, 0, .data (js "a") 0 [1, 2, 3]⟩]
    ⟨0, some 0, 1, .result 1 (.attached ⟨js "a", 80, 24, 3, 0, none⟩ 1 none)⟩
    [⟨0, some 0, 0, .data (js "a") 1 [2, 3]⟩] 1 (by decide) rfl).2

end Terminay.Holder
