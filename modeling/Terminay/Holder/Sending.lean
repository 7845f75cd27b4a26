import Terminay.Holder.SessionHolder

/-!
# What a send changes

A message to the attached server is written to its socket, in order, and may
pause the PTYs; it changes nothing else of the holder.
-/

namespace Terminay.Holder
open Script Workspace Outcome Chunks

section Lookups

variable {s : SessionHolder} {o p : ℕ} {h : HeldSession} {f : HeldSession → HeldSession}

theorem get_mem {sessionId : Str} (hget : s.get sessionId = some (o, h)) :
    o ∈ s.sessions ∧ s.held[o]? = some h ∧ h.sessionId = sessionId := by
  obtain ⟨p, hp, hfound⟩ := List.exists_of_findSome?_eq_some hget
  obtain ⟨g, hg, hsame⟩ := Option.bind_eq_some_iff.mp hfound
  split_ifs at hsame with hid
  cases hsame
  exact ⟨hp, hg, hid⟩

theorem held_update (h' : HeldSession) : (s.update o f).held[p]? = some h' ↔
    ∃ h, s.held[p]? = some h ∧ (if o = p then f h else h) = h' := by
  rw [SessionHolder.update, List.getElem?_modify, Option.map_eq_map, Option.map_eq_some_iff]

theorem held_updateAll (h' : HeldSession) : (s.updateAll f).held[p]? = some h' ↔
    ∃ h, s.held[p]? = some h ∧ (if p ∈ s.sessions then f h else h) = h' := by
  rw [SessionHolder.updateAll, List.getElem?_mapIdx, Option.map_eq_some_iff]

theorem length_update : (s.update o f).held.length = s.held.length := List.length_modify ..

theorem length_updateAll : (s.updateAll f).held.length = s.held.length := List.length_mapIdx

end Lookups

section Requests

variable {s s' : SessionHolder}

def SessionHolder.accepts (s : SessionHolder) (request : SpawnRequest) (spawnError : Option Str) :
    Bool :=
  s.draining = false ∧ idPattern request.sessionId = true ∧ s.get request.sessionId = none ∧
    1 ≤ request.cols ∧ request.cols ≤ 10000 ∧ 1 ≤ request.rows ∧ request.rows ≤ 10000 ∧
    spawnError = none

theorem spawn_ok {request : SpawnRequest} {spawnError presentationError : Option Str} :
    s.spawn request spawnError presentationError = .ok s' ↔
      s.accepts request spawnError = true ∧
      s' = s.register (.create request presentationError s.maxBufferBytes s.maxBufferBytes_pos) := by
  rw [SessionHolder.accepts, decide_eq_true_eq]
  simp only [SessionHolder.spawn, assertDimension, bind_ok, refuseIf_ok]
  cases spawnError with
  | some error => simp
  | none =>
    simp only [pure_ok]
    constructor
    · rintro ⟨_, hdraining, _, hid, _, hfresh, _, hcols, _, hrows, rfl⟩
      refine ⟨⟨?_, ?_, ?_, ?_, ?_, ?_, ?_, trivial⟩, rfl⟩
      · exact Bool.eq_false_iff.mpr hdraining
      · exact Bool.eq_true_of_not_eq_false hid
      · exact Option.not_isSome_iff_eq_none.mp hfresh
      all_goals omega
    · rintro ⟨⟨hdraining, hid, hfresh, hcols, hcols', hrows, hrows', -⟩, rfl⟩
      refine ⟨(), by simp [hdraining], (), by simp [hid], (), by simp [hfresh], (), by omega, (),
        by omega, rfl⟩

theorem held_register {session h : HeldSession} {o : ℕ} :
    (s.register session).held[o]? = some h ↔
      s.held[o]? = some h ∧ o < s.held.length ∨ o = s.held.length ∧ h = session := by
  rw [SessionHolder.register]
  rcases Nat.lt_trichotomy o s.held.length with hlt | rfl | hgt
  · rw [List.getElem?_append_left hlt]
    exact ⟨fun hh => .inl ⟨hh, hlt⟩, fun hor => hor.elim And.left fun hlast => by omega⟩
  · rw [List.getElem?_append_right (Nat.le_refl _), Nat.sub_self, List.getElem?_singleton,
      if_pos rfl, Option.some.injEq]
    exact ⟨fun hh => .inr ⟨rfl, hh.symm⟩, fun hor => hor.elim (fun hlt => by omega)
      fun hlast => hlast.2.symm⟩
  · rw [List.getElem?_eq_none (by rw [List.length_append, List.length_singleton]; omega)]
    exact ⟨fun hh => (by cases hh), fun hor => by omega⟩

theorem mem_register {session : HeldSession} {o : ℕ} (hlt : o < s.held.length) :
    o ∈ (s.register session).sessions ↔ o ∈ s.sessions := by
  rw [SessionHolder.register, List.mem_append, List.mem_singleton]
  exact ⟨fun hor => hor.resolve_right (by omega), .inl⟩

end Requests

structure Outgoing where
  session : Option ℕ
  requested : ℕ
  message : ServerMessage

def Outgoing.frame (socket : ℕ) (out : Outgoing) : Frame :=
  ⟨socket, out.session, out.requested, out.message⟩

def SessionHolder.framesOf (s : SessionHolder) (out : List Outgoing) : List Frame :=
  match s.attached with
  | none => []
  | some socket => if s.destroyed then [] else out.map (Outgoing.frame socket)

def HeldSession.calm (h : HeldSession) : HeldSession := { h with paused := false }

structure Sends (s : SessionHolder) (out : List Outgoing) (s' : SessionHolder) : Prop where
  sent : s'.sent = s.sent ++ s.framesOf out
  held : ∀ o : ℕ, s'.held[o]?.map HeldSession.calm = s.held[o]?.map HeldSession.calm
  length : s'.held.length = s.held.length
  sessions : s'.sessions = s.sessions
  attached : s'.attached = s.attached
  destroyed : s'.destroyed = s.destroyed
  nextSocket : s'.nextSocket = s.nextSocket
  recoveries : s'.recoveries = s.recoveries

section Sends

variable {s s' s'' : SessionHolder} {out out' : List Outgoing} {o : ℕ}

theorem framesOf_append (s : SessionHolder) (out out' : List Outgoing) :
    s.framesOf (out ++ out') = s.framesOf out ++ s.framesOf out' := by
  rw [SessionHolder.framesOf, SessionHolder.framesOf, SessionHolder.framesOf]
  split
  · rfl
  · split_ifs
    · rfl
    · exact List.map_append

theorem framesOf_nil (s : SessionHolder) : s.framesOf [] = [] := by
  rw [SessionHolder.framesOf]
  split
  · rfl
  · split_ifs <;> rfl

theorem Sends.refl (s : SessionHolder) : Sends s [] s :=
  ⟨by rw [framesOf_nil, List.append_nil], fun _ => rfl, rfl, rfl, rfl, rfl, rfl, rfl⟩

theorem Sends.trans (h : Sends s out s') (h' : Sends s' out' s'') :
    Sends s (out ++ out') s'' := by
  have hframes : s'.framesOf out' = s.framesOf out' := by
    rw [SessionHolder.framesOf, SessionHolder.framesOf, h.attached, h.destroyed]
  constructor
  · rw [h'.sent, h.sent, hframes, framesOf_append, List.append_assoc]
  · exact fun o => (h'.held o).trans (h.held o)
  · exact h'.length.trans h.length
  · exact h'.sessions.trans h.sessions
  · exact h'.attached.trans h.attached
  · exact h'.destroyed.trans h.destroyed
  · exact h'.nextSocket.trans h.nextSocket
  · exact h'.recoveries.trans h.recoveries

variable {b : ℕ → Bool}

theorem calm_pauseLive (h : HeldSession) : (SessionHolder.pauseLive h).calm = h.calm := by
  rw [SessionHolder.pauseLive]
  split_ifs <;> rfl

theorem sendFor_sends (s : SessionHolder) (session : Option ℕ) (requested : ℕ)
    (message : ServerMessage) :
    Sends s [⟨session, requested, message⟩] (s.sendFor b session requested message) := by
  rw [SessionHolder.sendFor]
  split
  next hattached =>
    refine ⟨?_, fun _ => rfl, rfl, rfl, rfl, rfl, rfl, rfl⟩
    rw [SessionHolder.framesOf, hattached, List.append_nil]
  next socket hattached =>
    have hframes : s.framesOf [⟨session, requested, message⟩] =
        if s.destroyed then [] else [⟨socket, session, requested, message⟩] := by
      rw [SessionHolder.framesOf, hattached]
      rfl
    split_ifs with hdestroyed hstalled
    · refine ⟨?_, fun _ => rfl, rfl, rfl, rfl, rfl, rfl, rfl⟩
      rw [hframes, if_pos hdestroyed, List.append_nil]
    · refine ⟨?_, fun o => ?_, length_updateAll, rfl, rfl, rfl, rfl, rfl⟩
      · rw [hframes, if_neg hdestroyed]
        rfl
      · change (s.held.mapIdx fun p h => if p ∈ s.sessions then SessionHolder.pauseLive h
          else h)[o]?.map HeldSession.calm = _
        rw [List.getElem?_mapIdx, Option.map_map]
        refine congrArg (fun g => Option.map g s.held[o]?) (funext fun h => ?_)
        simp only [Function.comp_apply]
        split_ifs
        · exact calm_pauseLive h
        · rfl
    · refine ⟨?_, fun _ => rfl, rfl, rfl, rfl, rfl, rfl, rfl⟩
      rw [hframes, if_neg hdestroyed]

def dataOf (o : ℕ) (sessionId : Str) (chunks : List (Chunk UInt8)) : List Outgoing :=
  chunks.map fun chunk => ⟨some o, 0, .data sessionId chunk.position chunk.bytes⟩

theorem sendRing_sends (s : SessionHolder) (o : ℕ) (sessionId : Str)
    (chunks : List (Chunk UInt8)) :
    Sends s (dataOf o sessionId chunks) (s.sendRing b o sessionId chunks) := by
  induction chunks generalizing s with
  | nil => exact .refl s
  | cons chunk chunks ih => exact (sendFor_sends s _ _ _).trans (ih _)

def presentationOf (o : ℕ) (sessionId : Str) (total : ℕ) : ℕ → List Bytes → List Outgoing
  | _, [] => []
  | offset, part :: parts =>
    ⟨some o, 0, .presentation sessionId offset total part⟩ ::
      presentationOf o sessionId total (offset + part.length) parts

theorem sendPresentation_sends (s : SessionHolder) (o : ℕ) (sessionId : Str)
    (total offset : ℕ) (parts : List Bytes) :
    Sends s (presentationOf o sessionId total offset parts)
      (s.sendPresentation b o sessionId total offset parts) := by
  induction parts generalizing s offset with
  | nil => exact .refl s
  | cons part parts ih => exact (sendFor_sends s _ _ _).trans (ih _ _)

def endOf (o : ℕ) (h : HeldSession) : List Outgoing :=
  match h.exit with
  | some exit => [⟨some o, 0, .exit h.sessionId h.outputPosition exit⟩]
  | none => []

theorem sendEnded_sends (s : SessionHolder) (o : ℕ) (h : HeldSession) :
    Sends s (endOf o h) (s.sendEnded b o h) := by
  rcases hexit : h.exit with _ | exit
  · rw [SessionHolder.sendEnded, endOf, hexit]
    exact .refl s
  · rw [SessionHolder.sendEnded, endOf, hexit]
    exact sendFor_sends s _ _ _

theorem update_recoveries (s : SessionHolder) (o : ℕ) (f : HeldSession → HeldSession) :
    (s.update o f).recoveries = s.recoveries := rfl

theorem sendAttached_recoveries (s : SessionHolder) (o : ℕ) (h : HeldSession) (id requested : ℕ)
    (error : Option Str) (chunks : List (Chunk UInt8)) :
    (s.sendAttached b o h id requested error chunks).recoveries = s.recoveries := by
  rw [SessionHolder.sendAttached, (sendEnded_sends _ o h).recoveries, update_recoveries,
    (sendRing_sends _ o h.sessionId chunks).recoveries]
  exact (sendFor_sends s _ _ _).recoveries

end Sends

end Terminay.Holder
