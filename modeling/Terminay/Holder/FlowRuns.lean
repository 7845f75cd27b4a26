import Mathlib.Algebra.BigOperators.Group.List.Basic
import Terminay.Holder.Sending

/-!
# Runs of the holder's flow control

A live session's PTY is paused exactly when one of the four reasons to pause it
holds, as long as no session is spawned while the attached socket is stalled: a
session spawned then runs until the next change of one of its own reasons.
-/

namespace Terminay.Holder
open Script Terminal Outcome Chunks

def pendingBytes (observations : List Observation) (o : ℕ) : ℕ :=
  ((observations.filter fun w => w.session = o).map Observation.bytes).sum

def Recovery.Active (r : Recovery) : Prop :=
  match r.stage with
  | .draining _ | .pinning => True
  | .waiting | .rejected _ => False

instance (r : Recovery) : Decidable r.Active := by
  unfold Recovery.Active
  cases r.stage <;> infer_instance

/-- A live PTY is paused exactly when there is a reason to pause it. -/
def Synced (sessions : List ℕ) (flowPaused : Bool) (o : ℕ) (h : HeldSession) : Prop :=
  o ∈ sessions → h.exit = none → h.paused = h.wantsPause flowPaused

structure Backed (sessions : List ℕ) (attached : Option ℕ) (observations : List Observation)
    (recoveries : List Recovery) (o : ℕ) (h : HeldSession) : Prop where
  counted : h.presentationBytes = pendingBytes observations o
  high : h.presentationPaused = true → presentationLowBytes < h.presentationBytes
  recovered : h.recovering = true → ∃ r ∈ recoveries, r.session = o ∧ r.Active
  resumed : attached = none → o ∈ sessions → h.serverPaused = false

structure Flowing (held : List HeldSession) (sessions : List ℕ) (attached : Option ℕ)
    (flowPaused : Bool) (observations : List Observation) (recoveries : List Recovery) : Prop where
  synced : ∀ o h, held[o]? = some h → Synced sessions flowPaused o h
  backed : ∀ o h, held[o]? = some h → Backed sessions attached observations recoveries o h
  released : attached = none → flowPaused = true → sessions = []
  known : ∀ w ∈ observations, w.session < held.length

/-- The flow control of a holder, as if its recoveries were these. -/
abbrev SessionHolder.FlowsWith (s : SessionHolder) (recoveries : List Recovery) : Prop :=
  Flowing s.held s.sessions s.attached s.flowPaused s.observations recoveries

abbrev SessionHolder.Flows (s : SessionHolder) : Prop := s.FlowsWith s.recoveries

section Sync

variable {sessions : List ℕ} {attached : Option ℕ} {flowPaused : Bool}
  {observations : List Observation} {recoveries : List Recovery} {o : ℕ} {h : HeldSession}

theorem syncFlow_synced (flowPaused : Bool) (h : HeldSession) :
    Synced sessions flowPaused o (h.syncFlow flowPaused) := by
  intro _ hexit
  rw [HeldSession.syncFlow] at hexit ⊢
  split_ifs at hexit ⊢ with hgone
  · rw [hexit] at hgone
    cases hgone
  · rfl

theorem syncFlow_fields (flowPaused : Bool) (h : HeldSession) :
    (h.syncFlow flowPaused).presentationBytes = h.presentationBytes ∧
      (h.syncFlow flowPaused).presentationPaused = h.presentationPaused ∧
      (h.syncFlow flowPaused).recovering = h.recovering ∧
      (h.syncFlow flowPaused).serverPaused = h.serverPaused := by
  rw [HeldSession.syncFlow]
  split_ifs <;> exact ⟨rfl, rfl, rfl, rfl⟩

theorem Backed.sync (hb : Backed sessions attached observations recoveries o h)
    (flowPaused : Bool) :
    Backed sessions attached observations recoveries o (h.syncFlow flowPaused) := by
  obtain ⟨hbytes, hpaused, hrecovering, hserver⟩ := syncFlow_fields flowPaused h
  constructor
  · rw [hbytes]
    exact hb.counted
  · rw [hbytes, hpaused]
    exact hb.high
  · rw [hrecovering]
    exact hb.recovered
  · rw [hserver]
    exact hb.resumed

structure SameFlow (h h' : HeldSession) : Prop where
  bytes : h'.presentationBytes = h.presentationBytes
  presentationPaused : h'.presentationPaused = h.presentationPaused
  recovering : h'.recovering = h.recovering
  serverPaused : h'.serverPaused = h.serverPaused
  paused : h'.paused = h.paused
  exit : h'.exit = none → h.exit = none

theorem Synced.same {h' : HeldSession} (hsynced : Synced sessions flowPaused o h)
    (hsame : SameFlow h h') : Synced sessions flowPaused o h' := by
  intro ho hnone
  rw [HeldSession.wantsPause, hsame.serverPaused, hsame.presentationPaused, hsame.recovering,
    hsame.paused]
  exact hsynced ho (hsame.exit hnone)

theorem Backed.same {h' : HeldSession}
    (hb : Backed sessions attached observations recoveries o h) (hsame : SameFlow h h') :
    Backed sessions attached observations recoveries o h' := by
  constructor
  · rw [hsame.bytes]
    exact hb.counted
  · rw [hsame.bytes, hsame.presentationPaused]
    exact hb.high
  · rw [hsame.recovering]
    exact hb.recovered
  · rw [hsame.serverPaused]
    exact hb.resumed

end Sync

section Changes

variable {s : SessionHolder} {recoveries : List Recovery} {o : ℕ} {f : HeldSession → HeldSession}

theorem update_flows (hs : s.FlowsWith recoveries)
    (hsynced : ∀ h, s.held[o]? = some h → Synced s.sessions s.flowPaused o h →
      Synced s.sessions s.flowPaused o (f h))
    (hbacked : ∀ h, s.held[o]? = some h →
      Backed s.sessions s.attached s.observations recoveries o h →
      Backed s.sessions s.attached s.observations recoveries o (f h)) :
    (s.update o f).FlowsWith recoveries := by
  constructor
  · intro p h' hp
    obtain ⟨h, hh, rfl⟩ := (held_update h').mp hp
    split_ifs with heq
    · subst heq
      exact hsynced h hh (hs.synced o h hh)
    · exact hs.synced p h hh
  · intro p h' hp
    obtain ⟨h, hh, rfl⟩ := (held_update h').mp hp
    split_ifs with heq
    · subst heq
      exact hbacked h hh (hs.backed o h hh)
    · exact hs.backed p h hh
  · exact hs.released
  · intro w hw
    rw [length_update]
    exact hs.known w hw

theorem update_flows_same (hs : s.FlowsWith recoveries) (hsame : ∀ h, SameFlow h (f h)) : (s.update o f).FlowsWith recoveries :=
  update_flows hs (fun h _ hsynced => hsynced.same (hsame h)) fun h _ hb => hb.same (hsame h)

theorem updateAll_flows_same (hs : s.FlowsWith recoveries) (hsame : ∀ h, SameFlow h (f h)) :
    (s.updateAll f).FlowsWith recoveries := by
  constructor
  · intro p h' hp
    obtain ⟨h, hh, rfl⟩ := (held_updateAll h').mp hp
    split_ifs
    · exact (hs.synced p h hh).same (hsame h)
    · exact hs.synced p h hh
  · intro p h' hp
    obtain ⟨h, hh, rfl⟩ := (held_updateAll h').mp hp
    split_ifs
    · exact (hs.backed p h hh).same (hsame h)
    · exact hs.backed p h hh
  · exact hs.released
  · intro w hw
    rw [length_updateAll]
    exact hs.known w hw

theorem update_flows_sync (hs : s.FlowsWith recoveries)
    (hbacked : ∀ h, s.held[o]? = some h →
      Backed s.sessions s.attached s.observations recoveries o h →
      Backed s.sessions s.attached s.observations recoveries o (f h)) :
    (s.update o fun h => HeldSession.syncFlow s.flowPaused (f h)).FlowsWith recoveries :=
  update_flows hs (fun _ _ _ => syncFlow_synced _ _) fun h hh hb => (hbacked h hh hb).sync _

end Changes

section Sends

variable {b : ℕ → Bool} {s : SessionHolder} {recoveries : List Recovery} {o : ℕ}

theorem pauseLive_flows (hs : s.FlowsWith recoveries) (hattached : s.attached ≠ none) :
    { s.updateAll SessionHolder.pauseLive with flowPaused := true }.FlowsWith recoveries := by
  constructor
  · intro p h' hp
    obtain ⟨h, hh, rfl⟩ := (held_updateAll h').mp hp
    intro (hmem : p ∈ s.sessions) hnone
    rw [if_pos hmem, SessionHolder.pauseLive] at hnone ⊢
    split_ifs at hnone ⊢ with hgone
    · rw [hnone] at hgone
      cases hgone
    · simp [HeldSession.wantsPause]
  · intro p h' hp
    obtain ⟨h, hh, rfl⟩ := (held_updateAll h').mp hp
    have hold := hs.backed p h hh
    rw [SessionHolder.pauseLive]
    split_ifs
    · exact hold
    · exact ⟨hold.counted, hold.high, hold.recovered, hold.resumed⟩
    · exact hold
  · exact fun hnone => absurd hnone hattached
  · intro w hw
    rw [length_updateAll]
    exact hs.known w hw

theorem sendFor_flows (hs : s.FlowsWith recoveries) (session : Option ℕ) (requested : ℕ)
    (message : ServerMessage) : (s.sendFor b session requested message).FlowsWith recoveries := by
  rw [SessionHolder.sendFor]
  split
  · exact hs
  next socket hattached =>
    split_ifs
    · exact hs
    · exact pauseLive_flows (s := { s with sent := _ }) hs (by simp [hattached])
    · exact hs

theorem sendRing_flows (hs : s.FlowsWith recoveries) (sessionId : Str) (chunks : List (Chunk UInt8)) :
    (s.sendRing b o sessionId chunks).FlowsWith recoveries := by
  induction chunks generalizing s with
  | nil => exact hs
  | cons chunk chunks ih => exact ih (sendFor_flows hs _ _ _)

theorem sendPresentation_flows (hs : s.FlowsWith recoveries) (sessionId : Str) (total offset : ℕ)
    (parts : List Bytes) :
    (s.sendPresentation b o sessionId total offset parts).FlowsWith recoveries := by
  induction parts generalizing s offset with
  | nil => exact hs
  | cons part parts ih => exact ih (sendFor_flows hs _ _ _) _

theorem sendEnded_flows (hs : s.FlowsWith recoveries) (h : HeldSession) : (s.sendEnded b o h).FlowsWith recoveries := by
  rw [SessionHolder.sendEnded]
  split
  · exact sendFor_flows hs _ _ _
  · exact hs

theorem Sends.flows {s' : SessionHolder} {out : List Outgoing} (hsends : Sends s out s')
    (h : s'.FlowsWith s.recoveries) : s'.Flows := by
  rw [SessionHolder.Flows, hsends.recoveries]
  exact h

theorem told_flows (hs : s.Flows) (session : Option ℕ) (requested : ℕ)
    (message : ServerMessage) : (s.sendFor b session requested message).Flows :=
  (sendFor_sends s session requested message).flows (sendFor_flows hs session requested message)

theorem releaseFlow_flows (hs : s.Flows) : s.releaseFlow.Flows := by
  rw [SessionHolder.releaseFlow]
  split_ifs
  · constructor
    · intro p h' hp
      obtain ⟨h, hh, rfl⟩ := (held_updateAll h').mp hp
      intro (hmem : p ∈ s.sessions)
      rw [if_pos hmem]
      exact syncFlow_synced false h hmem
    · intro p h' hp
      obtain ⟨h, hh, rfl⟩ := (held_updateAll h').mp hp
      split_ifs
      · exact (hs.backed p h hh).sync false
      · exact hs.backed p h hh
    · intro _ hflow
      cases hflow
    · intro w hw
      rw [length_updateAll]
      exact hs.known w hw
  · exact hs

theorem close_flows (hs : s.Flows) (reason : CloseReason) : (s.close b reason).Flows := by
  rw [SessionHolder.close]
  split_ifs
  · exact hs
  · refine updateAll_flows_same (told_flows (s := { s with closing := .endingSessions }) hs _ _ _)
      fun h => ?_
    split_ifs <;> exact ⟨rfl, rfl, rfl, rfl, rfl, id⟩

theorem exitIfIdle_flows (hs : s.Flows) : (s.exitIfIdle b).Flows := by
  rw [SessionHolder.exitIfIdle]
  split_ifs
  · exact hs
  · exact close_flows hs _
  · exact hs

end Sends

section Observations

variable {s : SessionHolder} {o : ℕ}

theorem pendingBytes_append (observations : List Observation) (w : Observation) (o : ℕ) :
    pendingBytes (observations ++ [w]) o =
      pendingBytes observations o + if w.session = o then w.bytes else 0 := by
  rw [pendingBytes, pendingBytes, List.filter_append, List.map_append, List.sum_append]
  split_ifs with h <;> simp [h]

theorem pendingBytes_erase {observations : List Observation} {i : ℕ} {w : Observation}
    (hw : observations[i]? = some w) (o : ℕ) :
    pendingBytes observations o =
      (if w.session = o then w.bytes else 0) + pendingBytes (observations.eraseIdx i) o := by
  obtain ⟨hi, rfl⟩ := List.getElem?_eq_some_iff.mp hw
  have hperm := List.getElem_cons_eraseIdx_perm hi
  have hsum := ((hperm.filter fun w => w.session = o).map Observation.bytes).sum_eq
  rw [pendingBytes, ← hsum, List.filter_cons]
  split_ifs with h h' h'
  · simp [pendingBytes]
  · exact absurd (of_decide_eq_true h) h'
  · exact absurd (decide_eq_true h') h
  · simp [pendingBytes]

theorem pendingBytes_unknown {observations : List Observation}
    (h : ∀ w ∈ observations, w.session < o) : pendingBytes observations o = 0 := by
  have hnone : (observations.filter fun w => w.session = o) = [] := by
    refine List.filter_eq_nil_iff.mpr fun w hw heq => ?_
    have hlt := h w hw
    have hsame := of_decide_eq_true heq
    omega
  rw [pendingBytes, hnone]
  rfl

theorem observePresentation_flows (hs : s.Flows) (bytes : ℕ) :
    (s.observePresentation o bytes).Flows := by
  rw [SessionHolder.observePresentation]
  split
  · exact hs
  next h hh =>
    split_ifs
    · exact hs
    · have hlt : o < s.held.length := (List.getElem?_eq_some_iff.mp hh).1
      constructor
      · intro p h' hp
        obtain ⟨g, hg, rfl⟩ := (held_update h').mp hp
        have hold := hs.synced p g hg
        split_ifs with heq
        · rw [HeldSession.observe]
          dsimp only
          split_ifs
          · exact syncFlow_synced _ _
          · exact hold
        · exact hold
      · intro p h' hp
        obtain ⟨g, hg, rfl⟩ := (held_update h').mp hp
        have hold := hs.backed p g hg
        have hcount := pendingBytes_append s.observations ⟨s.nextObservation, o, bytes⟩ p
        split_ifs with heq
        · rw [if_pos heq, ← hold.counted] at hcount
          rw [HeldSession.observe]
          dsimp only
          split_ifs with hhigh
          · apply Backed.sync
            refine ⟨hcount.symm, fun _ => ?_, hold.recovered, hold.resumed⟩
            have hmore := hhigh.1
            simp only [presentationHighBytes, presentationLowBytes] at hmore ⊢
            omega
          · refine ⟨hcount.symm, fun hpaused => ?_, hold.recovered, hold.resumed⟩
            have hmore := hold.high hpaused
            dsimp only
            omega
        · rw [if_neg heq, Nat.add_zero, ← hold.counted] at hcount
          exact ⟨hcount.symm, hold.high, hold.recovered, hold.resumed⟩
      · exact hs.released
      · intro w hw
        rw [length_update]
        rcases List.mem_append.mp hw with hw | hw
        · exact hs.known w hw
        · rw [List.mem_singleton.mp hw]
          exact hlt

theorem settled_flows (hs : s.Flows) (i : ℕ) (error : Option Str) : (s.settled i error).Flows := by
  rw [SessionHolder.settled]
  split
  · exact hs
  next w hw =>
    constructor
    · intro p h' hp
      obtain ⟨g, hg, rfl⟩ := (held_update h').mp hp
      have hold := hs.synced p g hg
      split_ifs with heq
      · rw [HeldSession.settle]
        dsimp only
        split_ifs
        · exact syncFlow_synced _ _
        · exact hold
      · exact hold
    · intro p h' hp
      obtain ⟨g, hg, rfl⟩ := (held_update h').mp hp
      have hold := hs.backed p g hg
      have hcount := pendingBytes_erase hw p
      rw [← hold.counted] at hcount
      split_ifs with heq
      · rw [if_pos heq] at hcount
        have hless : g.presentationBytes - w.bytes = pendingBytes (s.observations.eraseIdx i) p := by
          omega
        rw [HeldSession.settle]
        dsimp only
        split_ifs with hlow
        · apply Backed.sync
          exact ⟨hless, fun hpaused => (by cases hpaused), hold.recovered, hold.resumed⟩
        · refine ⟨hless, fun hpaused => ?_, hold.recovered, hold.resumed⟩
          exact Nat.lt_of_not_le fun hle => hlow ⟨hpaused, hle⟩
      · rw [if_neg heq, Nat.zero_add] at hcount
        exact ⟨hcount, hold.high, hold.recovered, hold.resumed⟩
    · exact hs.released
    · intro v hv
      rw [length_update]
      exact hs.known v (List.mem_of_mem_eraseIdx hv)

end Observations

section Requests

variable {b : ℕ → Bool} {s s' : SessionHolder} {recoveries : List Recovery} {o : ℕ}

theorem more_flows (hs : s.FlowsWith recoveries) {others : List Recovery}
    (hmore : ∀ r ∈ recoveries, r.Active → ∃ r' ∈ others, r'.session = r.session ∧ r'.Active) :
    s.FlowsWith others := by
  refine ⟨hs.synced, fun p h hh => ?_, hs.released, hs.known⟩
  have hold := hs.backed p h hh
  refine ⟨hold.counted, hold.high, fun hrecovering => ?_, hold.resumed⟩
  obtain ⟨r, hr, hsession, hactive⟩ := hold.recovered hrecovering
  obtain ⟨r', hr', hsame, hactive'⟩ := hmore r hr hactive
  exact ⟨r', hr', hsame.trans hsession, hactive'⟩

theorem spawn_flows (hs : s.Flows) {request : SpawnRequest}
    {spawnError presentationError : Option Str}
    (hspawn : s.spawn request spawnError presentationError = .ok s')
    (hflow : s.flowPaused = false) : s'.Flows := by
  obtain ⟨-, rfl⟩ := spawn_ok.mp hspawn
  constructor
  · intro p h hp hmem hnone
    rcases held_register.mp hp with ⟨hold, hlt⟩ | ⟨-, rfl⟩
    · exact hs.synced p h hold ((mem_register hlt).mp hmem) hnone
    · change false = HeldSession.wantsPause s.flowPaused (HeldSession.create ..)
      rw [hflow]
      rfl
  · intro p h hp
    rcases held_register.mp hp with ⟨hold, hlt⟩ | ⟨rfl, rfl⟩
    · have hb := hs.backed p h hold
      exact ⟨hb.counted, hb.high, hb.recovered, fun hnone hmem =>
        hb.resumed hnone ((mem_register hlt).mp hmem)⟩
    · refine ⟨?_, ?_, ?_, fun _ _ => rfl⟩
      · exact (pendingBytes_unknown fun w hw => hs.known w hw).symm
      · exact fun hpaused => (by cases hpaused)
      · exact fun hrecovering => (by cases hrecovering)
  · intro _ hstalled
    change s.flowPaused = true at hstalled
    rw [hflow] at hstalled
    cases hstalled
  · intro w hw
    have hlt := hs.known w hw
    rw [SessionHolder.register, List.length_append]
    omega

theorem streaming_flows (hs : s.FlowsWith recoveries) (streaming : Bool) :
    (s.update o fun h => { h with streaming := streaming }).FlowsWith recoveries :=
  update_flows_same hs fun _ => ⟨rfl, rfl, rfl, rfl, rfl, id⟩

theorem sendAttached_flows (hs : s.FlowsWith recoveries) (h : HeldSession) (id requested : ℕ)
    (error : Option Str) (chunks : List (Chunk UInt8)) :
    (s.sendAttached b o h id requested error chunks).FlowsWith recoveries := by
  have hanswered := sendFor_flows (b := b) hs (some o) requested
    (.result id (.attached h.record (max requested h.bufferedFrom) error))
  have hreplayed := sendRing_flows (b := b) (o := o) hanswered h.sessionId chunks
  exact sendEnded_flows (streaming_flows hreplayed true) h

theorem attach_flows (hs : s.Flows) {id : ℕ} {sessionId : Str} {position : ℤ}
    (hattach : s.attach b id sessionId position = .ok s') : s'.Flows := by
  simp only [SessionHolder.attach, bind_ok, pure_ok] at hattach
  obtain ⟨⟨o, h⟩, -, _, -, _, -, rfl⟩ := hattach
  rw [SessionHolder.Flows, sendAttached_recoveries]
  exact sendAttached_flows hs _ _ _ _ _

theorem proceed_flows (hs : s.Flows) (r : Recovery) : (s.proceed r).Flows := by
  rw [SessionHolder.proceed]
  split
  · exact hs
  next h hh =>
    split_ifs
    · exact more_flows hs fun r hr hactive => ⟨r, List.mem_append_left _ hr, rfl, hactive⟩
    · exact hs
    · have hmore : s.FlowsWith (s.recoveries ++
          [{ r with stage := .draining h.presentationQueue }]) :=
        more_flows hs fun r hr hactive => ⟨r, List.mem_append_left _ hr, rfl, hactive⟩
      refine update_flows_sync hmore fun g _ hb =>
        ⟨hb.counted, hb.high, fun _ => ?_, hb.resumed⟩
      exact ⟨_, List.mem_append_right _ (List.mem_singleton.mpr rfl), rfl, trivial⟩

theorem attachPresentation_flows (hs : s.Flows) (id : ℕ) (sessionId : Str) (position : ℤ)
    (socket : ℕ) : (s.attachPresentation id sessionId position socket).Flows := by
  rw [SessionHolder.attachPresentation]
  split
  · exact more_flows hs fun r hr hactive => ⟨r, List.mem_append_left _ hr, rfl, hactive⟩
  · split_ifs
    · exact more_flows hs fun r hr hactive => ⟨r, List.mem_append_left _ hr, rfl, hactive⟩
    · exact proceed_flows hs _

theorem letGo_flows (hs : s.FlowsWith recoveries) {others : List Recovery}
    (hothers : ∀ r ∈ recoveries, r.session ≠ o → r ∈ others) :
    (s.update o fun h => HeldSession.syncFlow s.flowPaused
      { h with recovering := false }).FlowsWith others := by
  constructor
  · intro p h' hp
    obtain ⟨h, hh, rfl⟩ := (held_update h').mp hp
    split_ifs
    · exact syncFlow_synced _ _
    · exact hs.synced p h hh
  · intro p h' hp
    obtain ⟨h, hh, rfl⟩ := (held_update h').mp hp
    have hold := hs.backed p h hh
    split_ifs with heq
    · apply Backed.sync
      exact ⟨hold.counted, hold.high, fun hrecovering => (by cases hrecovering), hold.resumed⟩
    · refine ⟨hold.counted, hold.high, fun hrecovering => ?_, hold.resumed⟩
      obtain ⟨r, hr, hsession, hactive⟩ := hold.recovered hrecovering
      exact ⟨r, hothers r hr fun hsame => heq (hsame.symm.trans hsession), hsession, hactive⟩
  · exact hs.released
  · intro w hw
    rw [length_update]
    exact hs.known w hw

theorem finish_flows {r : Recovery} (hs : s.FlowsWith recoveries)
    (hothers : ∀ r' ∈ recoveries, r'.session ≠ r.session → r' ∈ s.recoveries)
    (recovery : Bytes) (error : Option Str) : (s.finish b r recovery error).Flows := by
  rw [SessionHolder.finish]
  split
  next hnone =>
    refine ⟨hs.synced, fun p h hh => ?_, hs.released, hs.known⟩
    have hold := hs.backed p h hh
    refine ⟨hold.counted, hold.high, fun hrecovering => ?_, hold.resumed⟩
    obtain ⟨r', hr', hsession, hactive⟩ := hold.recovered hrecovering
    refine ⟨r', hothers r' hr' fun hsame => ?_, hsession, hactive⟩
    rw [← hsame, hsession, hh] at hnone
    cases hnone
  next h hh =>
    dsimp only
    split_ifs
    · exact letGo_flows hs hothers
    · have hpresented := sendPresentation_flows (b := b) (o := r.session) hs
        h.sessionId recovery.length 0 (piecesOf dataFrameBytes recovery.length recovery)
      refine letGo_flows (sendAttached_flows hpresented _ _ _ _ _) fun r' hr' hne => ?_
      rw [update_recoveries, sendAttached_recoveries, (sendPresentation_sends _ _ _ _ _ _).recoveries]
      exact hothers r' hr' hne

theorem recover_flows (hs : s.Flows) (i : ℕ) (pinned : Except Str (ℕ × Bytes)) :
    (s.recover b i pinned).Flows := by
  rw [SessionHolder.recover]
  split
  · exact hs
  next r hr =>
    obtain ⟨hi, hget⟩ := List.getElem?_eq_some_iff.mp hr
    have hmem : ∀ r' ∈ s.recoveries, r' = r ∨ r' ∈ s.recoveries.eraseIdx i := by
      intro r' hr'
      have hperm := List.getElem_cons_eraseIdx_perm hi
      rw [hget] at hperm
      exact List.mem_cons.mp (hperm.mem_iff.mpr hr')
    -- a recovery that is not active holds nothing
    have hidle : ¬ r.Active → { s with recoveries := s.recoveries.eraseIdx i }.Flows := by
      intro hinactive
      refine more_flows hs fun r' hr' hactive => ?_
      rcases hmem r' hr' with rfl | hrest
      · exact absurd hactive hinactive
      · exact ⟨r', hrest, rfl, hactive⟩
    have hmoved : ∀ stage, Recovery.Active { r with stage := stage } →
        { s with recoveries := s.recoveries.eraseIdx i ++ [{ r with stage := stage }] }.Flows := by
      intro stage hactive
      refine more_flows hs fun r' hr' hactive' => ?_
      rcases hmem r' hr' with rfl | hrest
      · exact ⟨_, List.mem_append_right _ (List.mem_singleton.mpr rfl), rfl, hactive⟩
      · exact ⟨r', List.mem_append_left _ hrest, rfl, hactive'⟩
    have hfinish : ∀ recovery error, (SessionHolder.finish b
        { s with recoveries := s.recoveries.eraseIdx i } r recovery error).Flows := by
      intro recovery error
      refine finish_flows (s := { s with recoveries := s.recoveries.eraseIdx i }) hs
        (fun r' hr' hne => ?_) recovery error
      rcases hmem r' hr' with rfl | hrest
      · exact absurd rfl hne
      · exact hrest
    dsimp only
    split
    next hstage =>
      have hinactive : ¬ r.Active := by
        rw [Recovery.Active, hstage]
        exact id
      split_ifs
      · exact told_flows (hidle hinactive) _ _ _
      · exact hidle hinactive
    next hnone _ =>
      refine ⟨hs.synced, fun p h hh => ?_, hs.released, hs.known⟩
      have hold := hs.backed p h hh
      refine ⟨hold.counted, hold.high, fun hrecovering => ?_, hold.resumed⟩
      obtain ⟨r', hr', hsession, hactive⟩ := hold.recovered hrecovering
      rcases hmem r' hr' with rfl | hrest
      · rw [hsession, hh] at hnone
        cases hnone
      · exact ⟨r', hrest, hsession, hactive⟩
    next hstage =>
      have hinactive : ¬ r.Active := by
        rw [Recovery.Active, hstage]
        exact id
      split_ifs
      · exact hs
      · exact proceed_flows (hidle hinactive) r
    · split_ifs
      · exact hs
      · exact hmoved _ trivial
      · exact hfinish _ _
      · exact hmoved _ trivial
    · split
      · exact hfinish _ _
      · split_ifs
        · exact hfinish _ _
        · exact hfinish _ _

end Requests

section Steps

variable {b : ℕ → Bool} {s s' : SessionHolder} {o : ℕ}

theorem outputPart_flows (hs : s.Flows) (part : Bytes) :
    (SessionHolder.outputPart b o s part).Flows := by
  rw [SessionHolder.outputPart]
  split
  · exact hs
  next h hh =>
    have hkept : ((s.observePresentation o part.length).update o (HeldSession.keep part)).Flows :=
      update_flows_same (observePresentation_flows hs _) fun _ => ⟨rfl, rfl, rfl, rfl, rfl, id⟩
    dsimp only
    split_ifs
    · exact told_flows hkept _ _ _
    · exact hkept

theorem output_flows (hs : s.Flows) (bytes : Bytes) : (s.output b o bytes).Flows := by
  rw [SessionHolder.output]
  split_ifs with hlistens
  · clear hlistens
    generalize piecesOf dataFrameBytes bytes.length bytes = parts
    induction parts generalizing s with
    | nil => exact hs
    | cons part parts ih => exact ih (outputPart_flows hs part)
  · exact hs

theorem exited_flows (hs : s.Flows) (exit : ExitRecord) : (s.exited b o exit).Flows := by
  have hgone : ∀ exit : ExitRecord, (s.update o fun h =>
      { h with exit := some exit }.release).Flows := fun exit =>
    update_flows_same hs fun _ => ⟨rfl, rfl, rfl, rfl, rfl, fun hnone => (by cases hnone)⟩
  rw [SessionHolder.exited]
  split
  · exact hs
  · split
    · exact hs
    · exact hs
    · exact exitIfIdle_flows (hgone _)
    · split_ifs
      · exact hs
      · exact exitIfIdle_flows (told_flows (hgone _) _ _ _)
      · exact exitIfIdle_flows (hgone _)

theorem fewer_flows (hs : s.Flows) {sessions : List ℕ} (hfewer : ∀ o ∈ sessions, o ∈ s.sessions) :
    { s with sessions := sessions }.Flows := by
  refine ⟨fun p h hh hmem => hs.synced p h hh (hfewer p hmem), fun p h hh => ?_,
    fun hnone hflow => ?_, hs.known⟩
  · have hold := hs.backed p h hh
    exact ⟨hold.counted, hold.high, hold.recovered, fun hnone hmem =>
      hold.resumed hnone (hfewer p hmem)⟩
  · refine List.eq_nil_iff_forall_not_mem.mpr fun p hp => ?_
    have hold := hfewer p hp
    rw [hs.released hnone hflow] at hold
    cases hold

theorem release_same (h : HeldSession) : SameFlow h h.release := ⟨rfl, rfl, rfl, rfl, rfl, id⟩

theorem endSession_flows (hs : s.Flows) (sessionId : Str) :
    (s.endSession b sessionId).Flows := by
  rw [SessionHolder.endSession]
  split
  · exact hs
  next o h _ =>
    have hremoved : { s with sessions := s.sessions.filter fun p => p ≠ o }.Flows :=
      fewer_flows hs fun p hp => (List.mem_filter.mp hp).1
    dsimp only
    split_ifs
    · exact update_flows_same hremoved fun _ => ⟨rfl, rfl, rfl, rfl, rfl, id⟩
    · exact exitIfIdle_flows (update_flows_same hremoved release_same)

theorem detached_flows (hs : s.Flows) : (s.detached b).Flows := by
  have hsynced : (SessionHolder.updateAll { s with attached := none, flowPaused := false }
      fun h => HeldSession.syncFlow false { h with streaming := false, serverPaused := false }).Flows := by
    constructor
    · intro p h' hp
      obtain ⟨h, hh, rfl⟩ := (held_updateAll h').mp hp
      intro (hmem : p ∈ s.sessions)
      rw [if_pos (by exact hmem)]
      exact syncFlow_synced false _ hmem
    · intro p h' hp
      obtain ⟨h, hh, rfl⟩ := (held_updateAll h').mp hp
      have hold := hs.backed p h hh
      split_ifs with hmem
      · apply Backed.sync
        exact ⟨hold.counted, hold.high, hold.recovered, fun _ _ => rfl⟩
      · exact ⟨hold.counted, hold.high, hold.recovered, fun _ hin => absurd hin hmem⟩
    · intro _ hflow
      cases hflow
    · intro w hw
      rw [length_updateAll]
      exact hs.known w hw
  rw [SessionHolder.detached]
  split_ifs
  · exact hsynced
  · exact close_flows hsynced _
  · exact hsynced

theorem ended_flows (hs : s.Flows) : s.ended.Flows := by
  have hcleared : { s.updateAll HeldSession.release with sessions := [] }.Flows :=
    fewer_flows (updateAll_flows_same hs release_same) fun _ hp => (by cases hp)
  rw [SessionHolder.ended]
  split_ifs
  · exact hs
  · exact hcleared
  · refine ⟨hcleared.synced, fun p h hh => ?_, fun _ _ => rfl, hcleared.known⟩
    have hold := hcleared.backed p h hh
    exact ⟨hold.counted, hold.high, hold.recovered, fun _ hmem => (by cases hmem)⟩

theorem admitServer_flows (hs : s.Flows) (version : ℕ) : (s.admitServer version).Flows := by
  rw [SessionHolder.admitServer]
  split_ifs
  · exact hs
  · split
    · exact hs
    · refine ⟨hs.synced, fun p h hh => ?_, fun hnone => (by cases hnone), hs.known⟩
      have hold := hs.backed p h hh
      exact ⟨hold.counted, hold.high, hold.recovered, fun hnone => (by cases hnone)⟩

theorem disconnected_flows (hs : s.Flows) : (s.disconnected b).Flows := by
  rw [SessionHolder.disconnected]
  split
  · exact hs
  · split_ifs
    · exact detached_flows hs
    · exact detached_flows hs

/-- A request that would spawn a session while the socket is stalled. -/
def SpawnsStalled (s : SessionHolder) : SessionHolder.Input → Prop
  | .receive (.spawn _ request spawnError _) =>
    s.attached ≠ none ∧ s.flowPaused = true ∧ s.accepts request spawnError = true
  | _ => False

instance (s : SessionHolder) : (i : SessionHolder.Input) → Decidable (SpawnsStalled s i)
  | .receive message => by
    cases message <;> unfold SpawnsStalled <;> infer_instance
  | .admitServer _ | .destroyed | .drained | .disconnected | .output _ _ | .exited _ _ | .settled _ _
  | .recover _ _ | .close _ | .ended => inferInstanceAs (Decidable False)

theorem handle_flows (hs : s.Flows) {socket : ℕ} (hattached : s.attached = some socket)
    {message : ClientMessage} (hspawns : ¬ SpawnsStalled s (.receive message))
    (hhandle : s.handle b socket message = .ok s') : s'.Flows := by
  cases message with
  | list id =>
    cases hhandle
    exact told_flows hs _ _ _
  | spawn id request spawnError presentationError =>
    simp only [SessionHolder.handle, bind_ok, pure_ok] at hhandle
    obtain ⟨spawned, hspawn, rfl⟩ := hhandle
    refine told_flows (spawn_flows hs hspawn ?_) _ _ _
    refine Bool.eq_false_iff.mpr fun hstalled => hspawns ⟨?_, hstalled, (spawn_ok.mp hspawn).1⟩
    rw [hattached]
    exact Option.some_ne_none _
  | attach id sessionId position =>
    rw [SessionHolder.handle] at hhandle
    split_ifs at hhandle
    · cases hhandle
      exact attachPresentation_flows hs _ _ _ _
    · exact attach_flows hs hhandle
  | write sessionId =>
    simp only [SessionHolder.handle, bind_ok, pure_ok] at hhandle
    obtain ⟨_, -, rfl⟩ := hhandle
    exact hs
  | resize sessionId cols rows =>
    simp only [SessionHolder.handle, bind_ok, pure_ok] at hhandle
    obtain ⟨⟨o, h⟩, -, _, -, _, -, rfl⟩ := hhandle
    have hresized : (s.update o fun h => { h with cols := cols, rows := rows }).Flows :=
      update_flows_same hs fun _ => ⟨rfl, rfl, rfl, rfl, rfl, fun hnone => hnone⟩
    exact observePresentation_flows hresized 0
  | signal sessionId =>
    simp only [SessionHolder.handle, bind_ok, pure_ok] at hhandle
    obtain ⟨_, -, rfl⟩ := hhandle
    exact hs
  | endSession id sessionId =>
    cases hhandle
    exact told_flows (endSession_flows hs sessionId) _ _ _
  | endAll id =>
    cases hhandle
    exact close_flows (told_flows hs _ _ _) _
  | pause sessionId =>
    simp only [SessionHolder.handle, bind_ok, pure_ok] at hhandle
    obtain ⟨⟨o, h⟩, -, rfl⟩ := hhandle
    refine update_flows_sync hs fun h _ hb => ⟨hb.counted, hb.high, hb.recovered, fun hnone => ?_⟩
    rw [hattached] at hnone
    cases hnone
  | resume sessionId =>
    simp only [SessionHolder.handle, bind_ok, pure_ok] at hhandle
    obtain ⟨⟨o, h⟩, -, rfl⟩ := hhandle
    exact update_flows_sync hs fun h _ hb => ⟨hb.counted, hb.high, hb.recovered, fun _ _ => rfl⟩
  | foreground id sessionId title =>
    simp only [SessionHolder.handle, bind_ok, pure_ok] at hhandle
    obtain ⟨_, -, rfl⟩ := hhandle
    exact told_flows hs _ _ _
  | drain =>
    simp only [SessionHolder.handle, pure_ok] at hhandle
    subst hhandle
    split_ifs
    · exact close_flows (s := { s with draining := true }) hs _
    · exact hs
  | other id => cases hhandle

theorem receive_flows (hs : s.Flows) {message : ClientMessage}
    (hspawns : ¬ SpawnsStalled s (.receive message)) : (s.receive b message).Flows := by
  rw [SessionHolder.receive]
  split
  · exact hs
  next socket hattached =>
    rcases hhandle : s.handle b socket message with error | next
    · rcases message.id with _ | id
      · exact hs
      · exact told_flows hs _ _ _
    · exact handle_flows hs hattached hspawns hhandle

theorem step_flows (hs : s.Flows) {i : SessionHolder.Input} (hspawns : ¬ SpawnsStalled s i) :
    (s.step b i).Flows := by
  cases i with
  | admitServer version => exact admitServer_flows hs version
  | receive message => exact receive_flows hs hspawns
  | destroyed => exact hs
  | drained =>
    rw [SessionHolder.step]
    split_ifs
    · exact releaseFlow_flows hs
    · exact hs
  | disconnected => exact disconnected_flows hs
  | output o bytes => exact output_flows hs bytes
  | exited o exit => exact exited_flows hs exit
  | settled i error => exact settled_flows hs i error
  | recover i pinned => exact recover_flows hs i pinned
  | close reason => exact close_flows hs reason
  | ended => exact ended_flows hs

theorem create_flows (maxBufferBytes : ℕ) (h : 0 < maxBufferBytes) :
    (SessionHolder.create maxBufferBytes h).Flows :=
  ⟨fun p h hh => (by cases hh), fun p h hh => (by cases hh), fun _ _ => rfl,
    fun w hw => (by cases hw)⟩

end Steps

/-- Every live session's PTY is paused exactly when one of the reasons to pause it holds. With no
server attached and no presentation work pending it runs, and while the attached socket is stalled
it produces nothing. -/
def FlowHolds (s : SessionHolder) : Prop :=
  ∀ o ∈ s.sessions, ∀ h, s.held[o]? = some h → h.exit = none →
    (h.paused = true ↔ h.serverPaused = true ∨ s.flowPaused = true ∨ h.presentationPaused = true ∨
      h.recovering = true) ∧
    (s.flowPaused = true → h.paused = true) ∧
    (s.attached = none → (∀ w ∈ s.observations, w.session ≠ o) →
      (∀ r ∈ s.recoveries, r.session = o → ¬ r.Active) → h.paused = false)

theorem SessionHolder.Flows.holds {s : SessionHolder} (hs : s.Flows) : FlowHolds s := by
  intro o ho h hh hexit
  have hsynced := hs.synced o h hh ho hexit
  have hbacked := hs.backed o h hh
  refine ⟨?_, fun hflow => ?_, fun hnone hobservations hrecoveries => ?_⟩
  · rw [hsynced, HeldSession.wantsPause]
    simp only [Bool.or_eq_true, or_assoc]
  · rw [hsynced, HeldSession.wantsPause, hflow]
    simp
  · have hserver := hbacked.resumed hnone ho
    have hflow : s.flowPaused = false := by
      refine Bool.eq_false_iff.mpr fun hstalled => ?_
      rw [hs.released hnone hstalled] at ho
      cases ho
    have hpending : pendingBytes s.observations o = 0 := by
      rw [pendingBytes, List.filter_eq_nil_iff.mpr fun w hw heq =>
        hobservations w hw (of_decide_eq_true heq)]
      rfl
    have hpresentation : h.presentationPaused = false := by
      refine Bool.eq_false_iff.mpr fun hpaused => ?_
      have hhigh := hbacked.high hpaused
      rw [hbacked.counted, hpending] at hhigh
      exact absurd hhigh (Nat.not_lt_zero _)
    have hrecovering : h.recovering = false := by
      refine Bool.eq_false_iff.mpr fun hon => ?_
      obtain ⟨r, hr, hsession, hactive⟩ := hbacked.recovered hon
      exact hrecoveries r hr hsession hactive
    rw [hsynced, HeldSession.wantsPause, hserver, hflow, hpresentation, hrecovering]
    rfl

theorem sendFor_stalled {b : ℕ → Bool} {s : SessionHolder} (hstalled : s.flowPaused = true)
    (session : Option ℕ) (requested : ℕ) (message : ServerMessage) :
    (s.sendFor b session requested message).held = s.held ∧
      (s.sendFor b session requested message).sessions = s.sessions ∧
      (s.sendFor b session requested message).flowPaused = true := by
  rw [SessionHolder.sendFor]
  split
  · exact ⟨rfl, rfl, hstalled⟩
  · split_ifs with hdestroyed hmore
    · exact ⟨rfl, rfl, hstalled⟩
    · rw [hstalled] at hmore
      cases hmore.2
    · exact ⟨rfl, rfl, hstalled⟩

theorem spawnsStalled_fails {b : ℕ → Bool} {s : SessionHolder} {i : SessionHolder.Input}
    (hspawns : SpawnsStalled s i) : ¬ FlowHolds (s.step b i) := by
  intro hholds
  cases i with
  | receive message =>
    cases message with
    | spawn id request spawnError presentationError =>
      obtain ⟨hattached, hstalled, haccepts⟩ := hspawns
      obtain ⟨socket, hsocket⟩ := Option.ne_none_iff_exists'.mp hattached
      have hspawn : s.spawn request spawnError presentationError = _ :=
        spawn_ok.mpr ⟨haccepts, rfl⟩
      let session := HeldSession.create request presentationError s.maxBufferBytes
        s.maxBufferBytes_pos
      have hstep : s.step b (.receive (.spawn id request spawnError presentationError)) =
          (s.register session).sendFor b (some s.held.length) 0
            (.result id (.spawned ⟨request.sessionId, request.cols, request.rows, 0, 0, none⟩)) := by
        rw [SessionHolder.step, SessionHolder.receive, hsocket]
        simp only [SessionHolder.handle, hspawn, bind, Except.bind, pure, Except.pure]
        rfl
      have hnew : (s.register session).held[s.held.length]? = some session :=
        held_register.mpr (.inr ⟨rfl, rfl⟩)
      have hregistered : s.held.length ∈ (s.register session).sessions :=
        List.mem_append_right _ (List.mem_singleton.mpr rfl)
      obtain ⟨hheld, hsessions, hflow⟩ := sendFor_stalled (b := b)
        (s := s.register session) hstalled (some s.held.length) 0
          (.result id (.spawned ⟨request.sessionId, request.cols, request.rows, 0, 0, none⟩))
      rw [hstep] at hholds
      rw [← hsessions] at hregistered
      rw [← hheld] at hnew
      exact absurd ((hholds _ hregistered _ hnew rfl).2.1 hflow) Bool.false_ne_true
    | _ => exact hspawns
  | _ => exact hspawns

theorem runs_flows {b : ℕ → Bool} {s : SessionHolder} (hs : s.Flows)
    {inputs : List SessionHolder.Input}
    (h : Runs.Meets (SessionHolder.step b) (fun s i => ¬ SpawnsStalled s i) s inputs) :
    (s.run b inputs).Flows := by
  have hstep : ∀ (s : SessionHolder) (i : SessionHolder.Input), s.Flows → ¬ SpawnsStalled s i →
      (s.step b i).Flows := fun _ _ hs hspawns => step_flows hs hspawns
  exact Runs.invariant_of_meets (I := SessionHolder.Flows) hstep hs h

/-- The flow control holds in every state of a run exactly when no session is spawned while the
attached socket is stalled. -/
theorem flow_runs (flushed : ℕ → Bool) (maxBufferBytes : ℕ) (hmax : 0 < maxBufferBytes)
    (inputs : List SessionHolder.Input) :
    (∀ before after, inputs = before ++ after →
      FlowHolds ((SessionHolder.create maxBufferBytes hmax).run flushed before)) ↔
    Runs.Meets (SessionHolder.step flushed) (fun s i => ¬ SpawnsStalled s i)
      (SessionHolder.create maxBufferBytes hmax) inputs := by
  constructor
  · intro hholds
    induction inputs using List.reverseRecOn with
    | nil => trivial
    | append_singleton inputs i ih =>
      refine Runs.meets_append.mpr ⟨ih fun before after heq => ?_, fun hspawns => ?_, trivial⟩
      · exact hholds before (after ++ [i]) (by rw [heq, List.append_assoc])
      · have hlast := hholds (inputs ++ [i]) [] (List.append_nil _).symm
        rw [SessionHolder.run, Runs.after_append] at hlast
        exact spawnsStalled_fails hspawns hlast
  · rintro hmeets before after rfl
    exact (runs_flows (create_flows maxBufferBytes hmax) (Runs.meets_append.mp hmeets).1).holds

def stalledSpawn : List SessionHolder.Input :=
  [.admitServer 1, .receive (.spawn 0 ⟨js "a", 80, 24⟩ none none),
    .receive (.spawn 1 ⟨js "b", 80, 24⟩ none none)]

def neverFlushed (_ : ℕ) : Bool := false

theorem flow_runs_one_session :
    FlowHolds ((SessionHolder.create 1 (by decide)).run neverFlushed
      [.admitServer 1, .receive (.spawn 0 ⟨js "a", 80, 24⟩ none none)]) :=
  (flow_runs neverFlushed 1 (by decide) _).mpr (by decide) _ [] (List.append_nil _).symm

/-- The second session runs while the socket is stalled. -/
theorem stalledSpawn_runs :
    ¬ FlowHolds ((SessionHolder.create 1 (by decide)).run neverFlushed stalledSpawn) := by
  intro hholds
  have hflow : ((SessionHolder.create 1 (by decide)).run neverFlushed stalledSpawn).flowPaused =
      true := by decide
  have hregistered : 1 ∈ ((SessionHolder.create 1 (by decide)).run neverFlushed
      stalledSpawn).sessions := by decide
  obtain ⟨h, hh, hpaused, hexit⟩ : ∃ h, ((SessionHolder.create 1 (by decide)).run neverFlushed
      stalledSpawn).held[1]? = some h ∧ h.paused = false ∧ h.exit = none := ⟨_, rfl, by decide, by decide⟩
  have hmust := (hholds 1 hregistered h hh hexit).2.1 hflow
  rw [hpaused] at hmust
  cases hmust

end Terminay.Holder
