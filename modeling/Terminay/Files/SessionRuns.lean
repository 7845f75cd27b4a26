import Terminay.Files.FileSession
import Terminay.Lib.Lists

/-!
# No accepted edit is lost

An edit stays in the draft until a save has written it, a later draft replaces it
or a confirmed reload discards it, as long as no draft is accepted and no change
observed while a save waits for the storage, no draft is accepted while a reload
waits, and no patch of the disk content is accepted over a draft.
-/

namespace Terminay.Files
open Script Lists

namespace SessionCalls

structure Kept (s : SessionCalls) : Prop where
  edits : ∀ n < s.session.draftRevision, n ∈ s.heldNumbers ∨
    (∃ w ∈ s.writes, n ∈ w.2.numbers) ∨ n ∈ s.replaced ∨ n ∈ s.discarded
  content : s.session.draftBytes = s.held.map Version.content
  wrote : ∀ w ∈ s.writes, w.1 = w.2.content
  conflict : s.unresolved = true → s.session.conflict = true ∧
    ∀ expectedDisk expectedDraft, s.save expectedDisk expectedDraft = s
  dirty : s.session.dirty = s.session.draftBytes.isSome

/-- The answer of the storage finds the draft of the call, or none; that of a save finds no
conflict, and that of a patch no draft. -/
def Undisturbed (s : SessionCalls) : FileSessionInput → Prop
  | .written n ok => ok = true → ∀ call ∈ s.saves[n]?, call.done = false →
      (s.session.draftBytes = none ∨ s.session.draftRevision = call.draftRevision) ∧
        s.session.conflict = false
  | .statted n answer => answer.isSome = true → ∀ call ∈ s.reloads[n]?, call.done = false →
      s.session.draftBytes = none ∨ s.session.draftRevision = call.draftRevision
  | .patchRead n _ => ∀ call ∈ s.patches[n]?, call.done = false →
      s.session.draftBytes = none ∨
        call.expected.any (fun expected : ℤ => expected ≠ s.session.draftRevision) = true
  | _ => True

instance (s : SessionCalls) : (input : FileSessionInput) → Decidable (s.Undisturbed input)
  | .written n ok => inferInstanceAs (Decidable (ok = true → ∀ call ∈ s.saves[n]?,
      call.done = false →
        (s.session.draftBytes = none ∨ s.session.draftRevision = call.draftRevision) ∧
          s.session.conflict = false))
  | .statted n answer => inferInstanceAs (Decidable (answer.isSome = true →
      ∀ call ∈ s.reloads[n]?, call.done = false →
        s.session.draftBytes = none ∨ s.session.draftRevision = call.draftRevision))
  | .patchRead n _ => inferInstanceAs (Decidable (∀ call ∈ s.patches[n]?, call.done = false →
      s.session.draftBytes = none ∨
        call.expected.any (fun expected : ℤ => expected ≠ s.session.draftRevision) = true))
  | .applyDraft _ _ | .applyDraftPatch _ _ _ | .save _ _ | .reload _ _ _ | .observeDiskChange _
  | .keepLocal | .setWatchState _ | .close => .isTrue trivial

end SessionCalls

section Session
variable {s t : FileSession}

namespace FileSession

def draftState (s : FileSession) : Option Bytes × Bool × Bool × ℕ :=
  (s.draftBytes, s.dirty, s.conflict, s.draftRevision)

theorem setDiskMetadata_draft (s : FileSession) (metadata : Option FileMetadata) :
    (s.setDiskMetadata metadata).draftState = s.draftState := by
  rcases metadata with _ | metadata
  · rfl
  · rfl

theorem create_draft {storage : FileSessionStorage} {options : FileSessionOptions}
    (h : create storage options = .ok s) : s.draftState = (none, false, false, 0) := by
  rw [create] at h
  split_ifs at h
  split at h
  · cases h
  · split at h
    · cases h
      exact setDiskMetadata_draft _ _
    · split_ifs at h
      cases h
      exact setDiskMetadata_draft _ options.initialMetadata

theorem applyDraft_ok {bytes : Bytes} {expected : Option ℤ} (h : s.applyDraft bytes expected = .ok t) :
    t.draftState = (some bytes, true, s.conflict, s.draftRevision + 1) ∧
      ∀ revision ∈ expected, revision = s.draftRevision := by
  rw [applyDraft] at h
  have hexpected : ¬ expected.getD s.draftRevision ≠ s.draftRevision →
      ∀ revision ∈ expected, revision = s.draftRevision := by
    intro hfresh revision hmem
    rw [not_not, Option.mem_def.mp hmem] at hfresh
    exact hfresh
  split_ifs at h with hclosed hrevision hstale hlarge
  · cases h
    exact ⟨rfl, hexpected hstale⟩
  · cases h
    exact ⟨rfl, hexpected hstale⟩

theorem patchDraft_ok {current bytes : Bytes} {offset : ℕ} {expected : Option ℤ}
    (h : s.patchDraft current offset bytes expected = .ok t) :
    t.draftState = (some (overlay current offset bytes), true, s.conflict, s.draftRevision + 1) ∧
      ∀ revision ∈ expected, revision = s.draftRevision := by
  rw [patchDraft] at h
  split_ifs at h
  exact applyDraft_ok h

theorem setDiskContent_draft (s : FileSession) (change : ExternalDiskChange) :
    (s.setDiskContent change).draftState = s.draftState := by
  rw [setDiskContent]
  split
  · rfl
  · rfl

theorem noteChange_draft (s : FileSession) :
    s.noteChange.draftState = (s.draftBytes, s.dirty, s.dirty, s.draftRevision) := by
  rw [noteChange]
  split_ifs with hdirty
  · simp only [draftState, hdirty]
  · simp only [draftState, hdirty]

theorem observeDiskChange_draft (s : FileSession) (change : ExternalDiskChange) :
    (s.observeDiskChange change).2.isNone = false ∧
        (s.observeDiskChange change).1.draftState = s.draftState ∨
      (s.observeDiskChange change).2.isNone = true ∧
        (s.observeDiskChange change).1.draftState =
          (s.draftBytes, s.dirty, s.dirty, s.draftRevision) := by
  rw [observeDiskChange]
  split_ifs
  · exact .inl ⟨rfl, rfl⟩
  · exact .inl ⟨rfl, rfl⟩
  · dsimp only
    split
    · exact .inl ⟨rfl, rfl⟩
    · refine .inr ⟨rfl, ?_⟩
      have hknown := (setDiskContent_draft _ change).trans (setDiskMetadata_draft
        { s with diskRevision := (change.diskRevision.getD (s.diskRevision + 1)).toNat }.clearHostMetadata
        change.metadata)
      simp only [draftState, Prod.mk.injEq] at hknown
      obtain ⟨hbytes, hdirty, -, hrevision⟩ := hknown
      rw [noteChange_draft, hbytes, hdirty, hrevision]
      rfl

theorem reloaded_draft (s : FileSession) (metadata : Option FileMetadata) :
    (s.reloaded metadata).1.draftState = (none, false, false, s.draftRevision) := by
  rw [reloaded]
  dsimp only
  split
  · rfl
  · exact setDiskMetadata_draft _ metadata

theorem checkSave_ok {expectedDisk expectedDraft : Option ℤ} {bytes : Bytes}
    (h : s.checkSave expectedDisk expectedDraft = .ok bytes) :
    s.draftBytes = some bytes ∧ s.conflict = false := by
  rw [checkSave] at h
  split_ifs at h with hclosed hdirty hconflict
  · split at h
    · cases h
    · split at h
      · cases h
      · cases h
  · split at h
    · cases h
    · split at h
      · cases h
      · cases h
  · split at h
    · cases h
    · split at h
      · cases h
      next hbytes =>
        cases h
        rw [Bool.not_eq_true] at hconflict
        exact ⟨hbytes, hconflict⟩

end FileSession

end Session

section Invariant
variable {s t : SessionCalls}

namespace SessionCalls

structure Coherent (s : SessionCalls) : Prop where
  edits : ∀ n < s.session.draftRevision, n ∈ s.heldNumbers ∨
    (∃ w ∈ s.writes, n ∈ w.2.numbers) ∨ n ∈ s.replaced ∨ n ∈ s.discarded
  content : s.session.draftBytes = s.held.map Version.content
  wrote : ∀ w ∈ s.writes, w.1 = w.2.content
  dirty : s.session.dirty = s.session.draftBytes.isSome
  conflict : s.unresolved = true → s.session.conflict = true ∧ s.session.dirty = true
  below : ∀ n ∈ s.heldNumbers, n < s.session.draftRevision
  saves : ∀ (i : ℕ) call, s.saves[i]? = some call → call.done = false →
    call.bytes = call.version.content ∧ call.draftRevision ≤ s.session.draftRevision ∧
      (call.draftRevision = s.session.draftRevision → ∀ v, s.held = some v → v = call.version)
  reloads : ∀ (i : ℕ) call, s.reloads[i]? = some call → call.done = false →
    call.draftRevision ≤ s.session.draftRevision ∧
      (call.draftRevision = s.session.draftRevision → s.held ≠ none → call.confirm = true)

theorem Coherent.accept (h : Coherent s) {version : Version}
    (hstate : t.session.draftState =
      (some version.content, true, s.session.conflict, s.session.draftRevision + 1))
    (hheld : t.held = some version) (hnew : s.session.draftRevision ∈ version.numbers)
    (hkept : ∀ n ∈ s.heldNumbers, n ∈ version.numbers ∨ n ∈ t.replaced)
    (hbelow : ∀ n ∈ version.numbers, n ≤ s.session.draftRevision) (hwrites : t.writes = s.writes)
    (hreplaced : ∀ n ∈ s.replaced, n ∈ t.replaced) (hdiscarded : t.discarded = s.discarded)
    (hunresolved : t.unresolved = s.unresolved) (hsaves : t.saves = s.saves)
    (hreloads : t.reloads = s.reloads) : Coherent t := by
  simp only [FileSession.draftState, Prod.mk.injEq] at hstate
  obtain ⟨hbytes, hdirty, hconflict, hrevision⟩ := hstate
  have hnumbers : t.heldNumbers = version.numbers := by
    rw [heldNumbers, hheld]
    rfl
  refine ⟨fun n hn => ?_, ?_, ?_, ?_, fun hu => ?_, fun n hn => ?_, fun i call hi hopen => ?_,
    fun i call hi hopen => ?_⟩
  · rw [hrevision] at hn
    rw [hnumbers, hwrites, hdiscarded]
    rcases Nat.lt_succ_iff_lt_or_eq.mp hn with hold | rfl
    · rcases h.edits n hold with hin | hin | hin | hin
      · rcases hkept n hin with hin | hin
        · exact .inl hin
        · exact .inr (.inr (.inl hin))
      · exact .inr (.inl hin)
      · exact .inr (.inr (.inl (hreplaced n hin)))
      · exact .inr (.inr (.inr hin))
    · exact .inl hnew
  · rw [hbytes, hheld]
    rfl
  · rw [hwrites]
    exact h.wrote
  · rw [hdirty, hbytes]
    rfl
  · rw [hunresolved] at hu
    rw [hconflict]
    exact ⟨(h.conflict hu).1, hdirty⟩
  · rw [hnumbers] at hn
    rw [hrevision]
    exact Nat.lt_succ_of_le (hbelow n hn)
  · rw [hsaves] at hi
    obtain ⟨hcontent, hle, -⟩ := h.saves i call hi hopen
    rw [hrevision]
    exact ⟨hcontent, by omega, fun heq => by omega⟩
  · rw [hreloads] at hi
    obtain ⟨hle, -⟩ := h.reloads i call hi hopen
    rw [hrevision]
    exact ⟨by omega, fun heq => by omega⟩

theorem Coherent.empty (h : Coherent s)
    (hstate : t.session.draftState = (none, false, false, s.session.draftRevision))
    (hheld : t.held = none)
    (hkept : ∀ n ∈ s.heldNumbers, (∃ w ∈ t.writes, n ∈ w.2.numbers) ∨ n ∈ t.discarded)
    (hwrites : ∀ w ∈ s.writes, w ∈ t.writes) (hwrote : ∀ w ∈ t.writes, w.1 = w.2.content)
    (hreplaced : t.replaced = s.replaced) (hdiscarded : ∀ n ∈ s.discarded, n ∈ t.discarded)
    (hunresolved : t.unresolved = false)
    (hsaves : ∀ (i : ℕ) call, t.saves[i]? = some call → call.done = false → s.saves[i]? = some call)
    (hreloads : ∀ (i : ℕ) call, t.reloads[i]? = some call → call.done = false →
      s.reloads[i]? = some call) : Coherent t := by
  simp only [FileSession.draftState, Prod.mk.injEq] at hstate
  obtain ⟨hbytes, hdirty, hconflict, hrevision⟩ := hstate
  refine ⟨fun n hn => ?_, ?_, hwrote, ?_, fun hu => ?_, fun n hn => ?_, fun i call hi hopen => ?_,
    fun i call hi hopen => ?_⟩
  · rw [hrevision] at hn
    rw [hreplaced]
    rcases h.edits n hn with hin | ⟨w, hw, hin⟩ | hin | hin
    · rcases hkept n hin with hin | hin
      · exact .inr (.inl hin)
      · exact .inr (.inr (.inr hin))
    · exact .inr (.inl ⟨w, hwrites w hw, hin⟩)
    · exact .inr (.inr (.inl hin))
    · exact .inr (.inr (.inr (hdiscarded n hin)))
  · rw [hbytes, hheld]
    rfl
  · rw [hdirty, hbytes]
    rfl
  · rw [hunresolved] at hu
    cases hu
  · rw [heldNumbers, hheld] at hn
    cases hn
  · obtain ⟨hcontent, hle, -⟩ := h.saves i call (hsaves i call hi hopen) hopen
    rw [hrevision, hheld]
    exact ⟨hcontent, hle, fun _ => nofun⟩
  · obtain ⟨hle, -⟩ := h.reloads i call (hreloads i call hi hopen) hopen
    rw [hrevision, hheld]
    exact ⟨hle, fun _ hno => absurd rfl hno⟩

theorem Coherent.same (h : Coherent s) {conflict : Bool}
    (hstate : t.session.draftState =
      (s.session.draftBytes, s.session.dirty, conflict, s.session.draftRevision))
    (hheld : t.held = s.held) (hwrites : t.writes = s.writes) (hreplaced : t.replaced = s.replaced)
    (hdiscarded : t.discarded = s.discarded)
    (hunresolved : t.unresolved = true → conflict = true ∧ s.session.dirty = true)
    (hsaves : ∀ (i : ℕ) call, t.saves[i]? = some call → call.done = false →
      s.saves[i]? = some call ∨ call.bytes = call.version.content ∧
        call.draftRevision = s.session.draftRevision ∧ ∀ v, s.held = some v → v = call.version)
    (hreloads : ∀ (i : ℕ) call, t.reloads[i]? = some call → call.done = false →
      s.reloads[i]? = some call ∨ call.draftRevision = s.session.draftRevision ∧
        (s.held ≠ none → call.confirm = true)) : Coherent t := by
  simp only [FileSession.draftState, Prod.mk.injEq] at hstate
  obtain ⟨hbytes, hdirty, hconflict, hrevision⟩ := hstate
  have hnumbers : t.heldNumbers = s.heldNumbers := by rw [heldNumbers, heldNumbers, hheld]
  refine ⟨?_, ?_, ?_, ?_, fun hu => ?_, ?_, fun i call hi hopen => ?_, fun i call hi hopen => ?_⟩
  · rw [hrevision, hnumbers, hwrites, hreplaced, hdiscarded]
    exact h.edits
  · rw [hbytes, hheld]
    exact h.content
  · rw [hwrites]
    exact h.wrote
  · rw [hdirty, hbytes]
    exact h.dirty
  · rw [hconflict, hdirty]
    exact hunresolved hu
  · rw [hnumbers, hrevision]
    exact h.below
  · rw [hrevision, hheld]
    rcases hsaves i call hi hopen with hold | ⟨hcontent, heq, hversion⟩
    · exact h.saves i call hold hopen
    · exact ⟨hcontent, heq.le, fun _ => hversion⟩
  · rw [hrevision, hheld]
    rcases hreloads i call hi hopen with hold | ⟨heq, hconfirm⟩
    · exact h.reloads i call hold hopen
    · exact ⟨heq.le, fun _ => hconfirm⟩

theorem opened_coherent {session : FileSession}
    (h : session.draftState = (none, false, false, 0)) : Coherent (opened session) := by
  simp only [FileSession.draftState, Prod.mk.injEq] at h
  obtain ⟨hbytes, hdirty, -, hrevision⟩ := h
  refine ⟨fun n hn => ?_, hbytes, nofun, ?_, nofun, nofun, fun i call hi => ?_, fun i call hi => ?_⟩
  · have hn' : n < session.draftRevision := hn
    omega
  · have hsame : session.dirty = session.draftBytes.isSome := by rw [hdirty, hbytes]; rfl
    exact hsame
  · cases hi
  · cases hi

theorem Coherent.unheld (h : Coherent s) (hnone : s.session.draftBytes = none) : s.held = none := by
  rw [h.content] at hnone
  exact Option.map_eq_none_iff.mp hnone

theorem Coherent.applyDraft (h : Coherent s) (bytes : Bytes) (expected : Option ℤ) :
    Coherent (s.applyDraft bytes expected) := by
  rw [SessionCalls.applyDraft]
  split
  next session hok =>
    have hstate : session.draftState =
        (some (⟨[], [(s.session.draftRevision, .draft bytes)]⟩ : Version).content, true,
          s.session.conflict, s.session.draftRevision + 1) := (FileSession.applyDraft_ok hok).1
    exact h.accept hstate rfl (List.mem_singleton_self _)
      (fun n hn => .inr (List.mem_append_right _ hn))
      (fun n hn => (List.mem_singleton.mp hn).le) rfl
      (fun n hn => List.mem_append_left _ hn) rfl rfl rfl rfl
  next => exact h

theorem Coherent.patchDraft (h : Coherent s) {version : Version} {current bytes : Bytes}
    {offset : ℕ} {expected : Option ℤ} (hcurrent : version.content = current)
    (hbelow : ∀ n ∈ version.numbers, n < s.session.draftRevision)
    (hheld : (∀ revision ∈ expected, revision = s.session.draftRevision) →
      ∀ n ∈ s.heldNumbers, n ∈ version.numbers) :
    Coherent (s.patchDraft version current offset bytes expected) := by
  rw [SessionCalls.patchDraft]
  split
  next session hok =>
    obtain ⟨hstate, hexpected⟩ := FileSession.patchDraft_ok hok
    have hcontent : (⟨version.base, version.edits ++ [(s.session.draftRevision, .patch offset bytes)]⟩ :
        Version).content = overlay current offset bytes := by
      simp [Version.content, Edit.apply, ← hcurrent]
    have hnumbers : (⟨version.base, version.edits ++ [(s.session.draftRevision, .patch offset bytes)]⟩ :
        Version).numbers = version.numbers ++ [s.session.draftRevision] := by
      simp [Version.numbers]
    rw [← hcontent] at hstate
    refine h.accept hstate rfl ?_ (fun n hn => .inl ?_) (fun n hn => ?_) rfl (fun _ hn => hn) rfl rfl
      rfl rfl
    · rw [hnumbers]
      exact List.mem_append_right _ (List.mem_singleton_self _)
    · rw [hnumbers]
      exact List.mem_append_left _ (hheld hexpected n hn)
    · rw [hnumbers] at hn
      rcases List.mem_append.mp hn with hold | hnew
      · exact (hbelow n hold).le
      · exact (List.mem_singleton.mp hnew).le
  next => exact h

theorem Coherent.patches (h : Coherent s) (patches : List PatchCall) :
    Coherent { s with patches := patches } :=
  ⟨h.edits, h.content, h.wrote, h.dirty, h.conflict, h.below, h.saves, h.reloads⟩

theorem Coherent.applyDraftPatch (h : Coherent s) (bytes : Bytes) (offset : ℤ)
    (expected : Option ℤ) : Coherent (s.applyDraftPatch bytes offset expected) := by
  rw [SessionCalls.applyDraftPatch]
  split_ifs
  · exact h
  · split
    next current hcurrent =>
      have hcontent := h.content
      rw [hcurrent] at hcontent
      obtain ⟨version, hheld, hversion⟩ := Option.map_eq_some_iff.mp hcontent.symm
      have hnumbers : s.heldNumbers = version.numbers := by
        rw [heldNumbers, hheld]
        rfl
      rw [hheld, Option.getD_some]
      refine h.patchDraft hversion (fun n hn => ?_) fun _ n hn => ?_
      · rw [← hnumbers] at hn
        exact h.below n hn
      · rw [hnumbers] at hn
        exact hn
    next =>
      split
      · exact h.patches _
      · exact h

theorem Coherent.patchRead (h : Coherent s) (n : ℕ) {call : PatchCall} (answer : Option Bytes)
    (hfree : s.session.draftBytes = none ∨
      call.expected.any (fun expected : ℤ => expected ≠ s.session.draftRevision) = true) :
    Coherent (s.patchRead n call answer) := by
  have hpatch : ∀ bytes : Bytes, Coherent (SessionCalls.patchDraft
      { s with patches := s.patches.set n { call with done := true } } ⟨bytes, []⟩ bytes call.offset
      call.bytes call.expected) := by
    intro bytes
    refine (h.patches _).patchDraft rfl nofun fun hexpected m hm => ?_
    rcases hfree with hnone | hstale
    · have hm' : m ∈ s.heldNumbers := hm
      rw [heldNumbers, h.unheld hnone] at hm'
      cases hm'
    · rcases hcall : call.expected with _ | revision
      · rw [hcall] at hstale
        cases hstale
      · rw [hcall] at hstale
        have hsame : revision = s.session.draftRevision := hexpected revision (by rw [hcall]; rfl)
        simp [hsame] at hstale
  rw [SessionCalls.patchRead]
  split
  · exact hpatch _
  · split
    · exact hpatch _
    · exact h.patches _

theorem open_old {α : Type} (done : α → Bool) {calls : List α} {n i : ℕ} {finished call : α}
    (hfinished : done finished = true) (hi : (calls.set n finished)[i]? = some call)
    (hopen : done call = false) : calls[i]? = some call := by
  rcases get_set.mp hi with ⟨-, -, heq⟩ | ⟨-, hold⟩
  · rw [← heq, hfinished] at hopen
    cases hopen
  · exact hold

theorem Coherent.save (h : Coherent s) (expectedDisk expectedDraft : Option ℤ) :
    Coherent (s.save expectedDisk expectedDraft) := by
  rw [SessionCalls.save]
  split
  next bytes hok =>
    obtain ⟨hbytes, hconflict⟩ := FileSession.checkSave_ok hok
    have hcontent := h.content
    rw [hbytes] at hcontent
    obtain ⟨version, hheld, hversion⟩ := Option.map_eq_some_iff.mp hcontent.symm
    refine h.same rfl rfl rfl rfl rfl h.conflict (fun i call hi hopen => ?_)
      fun i call hi _ => .inl hi
    rcases get_concat.mp hi with hold | ⟨-, rfl⟩
    · exact .inl hold
    · refine .inr ⟨?_, rfl, fun v hv => ?_⟩
      · simp [hheld, hversion]
      · simp [hv]
  next => exact h

theorem Coherent.written (h : Coherent s) {n : ℕ} {call : SaveCall} (hn : s.saves[n]? = some call)
    (hopen : call.done = false) {ok : Bool} (hfree : ok = true →
      (s.session.draftBytes = none ∨ s.session.draftRevision = call.draftRevision) ∧
        s.session.conflict = false) : Coherent (s.written n call ok) := by
  rw [SessionCalls.written]
  split_ifs with hok
  · obtain ⟨hsame, hconflict⟩ := hfree hok
    obtain ⟨hcontent, -, hversion⟩ := h.saves n call hn hopen
    refine h.empty rfl rfl (fun m hm => .inl ?_) (fun w hw => List.mem_append_left _ hw)
      (fun w hw => ?_) rfl (fun _ hm => hm) ?_
      (fun i q hi hqopen => open_old SaveCall.done rfl hi hqopen) fun i q hi _ => hi
    · refine ⟨(call.bytes, call.version), List.mem_append_right _ (List.mem_singleton_self _), ?_⟩
      rcases hheld : s.held with _ | v
      · rw [heldNumbers, hheld] at hm
        cases hm
      · rcases hsame with hnone | hsame
        · rw [h.unheld hnone] at hheld
          cases hheld
        · rw [heldNumbers, hheld, hversion hsame.symm v hheld] at hm
          exact hm
    · rcases List.mem_append.mp hw with hold | hnew
      · exact h.wrote w hold
      · rw [List.mem_singleton.mp hnew]
        exact hcontent
    · rcases hu : s.unresolved with _ | _
      · rfl
      · rw [(h.conflict hu).1] at hconflict
        cases hconflict
  · exact h.same rfl rfl rfl rfl rfl h.conflict
      (fun i q hi hqopen => .inl (open_old SaveCall.done rfl hi hqopen))
      fun i q hi _ => .inl hi

theorem Coherent.reloaded (h : Coherent s) {confirm : Bool} {draftRevision : ℕ}
    (hconfirm : s.held ≠ none → confirm = true ∧ s.session.draftRevision = draftRevision)
    (metadata : Option FileMetadata) : Coherent (s.reloaded confirm draftRevision metadata) := by
  refine h.empty (FileSession.reloaded_draft s.session metadata) rfl (fun n hn => .inr ?_)
    (fun _ hw => hw) h.wrote rfl (fun _ hn => List.mem_append_left _ hn) rfl (fun i q hi _ => hi)
    fun i q hi _ => hi
  have hheld : s.held ≠ none := by
    intro hnone
    rw [heldNumbers, hnone] at hn
    cases hn
  obtain ⟨hyes, hrevision⟩ := hconfirm hheld
  apply List.mem_append_right
  rw [if_pos hyes]
  have hlt := h.below n hn
  rw [hrevision] at hlt
  exact List.mem_filter.mpr ⟨hn, decide_eq_true hlt⟩

theorem Coherent.confirmed (h : Coherent s) {confirm : Bool} {expectedDisk expectedDraft : Option ℤ}
    (hcheck : ¬ (s.session.checkReload confirm expectedDisk expectedDraft).isSome = true)
    (hheld : s.held ≠ none) : confirm = true := by
  have hdirty : s.session.dirty = true := by
    rw [h.dirty, h.content, Option.isSome_map]
    exact Option.isSome_iff_ne_none.mpr hheld
  rw [FileSession.checkReload] at hcheck
  split_ifs at hcheck with hclosed hunconfirmed
  · simp at hcheck
  · simp at hcheck
  · rcases hconfirm : confirm with _ | _
    · exact absurd ⟨hdirty, hconfirm⟩ hunconfirmed
    · rfl

theorem Coherent.reload (h : Coherent s) (confirm : Bool) (expectedDisk expectedDraft : Option ℤ) :
    Coherent (s.reload confirm expectedDisk expectedDraft) := by
  rw [SessionCalls.reload]
  split_ifs with hcheck hstat
  · exact h
  · refine h.same rfl rfl rfl rfl rfl h.conflict (fun i q hi _ => .inl hi) fun i q hi _ => ?_
    rcases get_concat.mp hi with hold | ⟨-, rfl⟩
    · exact .inl hold
    · exact .inr ⟨rfl, h.confirmed hcheck⟩
  · exact h.reloaded (fun hheld => ⟨h.confirmed hcheck hheld, rfl⟩) none

theorem Coherent.statted (h : Coherent s) {n : ℕ} {call : ReloadCall}
    (hn : s.reloads[n]? = some call) (hopen : call.done = false) {answer : Option FileMetadata}
    (hfree : answer.isSome = true →
      s.session.draftBytes = none ∨ s.session.draftRevision = call.draftRevision) :
    Coherent (s.statted n call answer) := by
  have hfinished : Coherent { s with reloads := s.reloads.set n { call with done := true } } :=
    h.same rfl rfl rfl rfl rfl h.conflict (fun i q hi _ => .inl hi)
      fun i q hi hqopen => .inl (open_old ReloadCall.done rfl hi hqopen)
  rcases answer with _ | metadata
  · exact hfinished
  · refine hfinished.reloaded (fun hheld => ?_) (some metadata)
    rcases hfree rfl with hnone | hsame
    · exact absurd (h.unheld hnone) hheld
    · exact ⟨(h.reloads n call hn hopen).2 hsame.symm hheld, hsame⟩

theorem Coherent.observeDiskChange (h : Coherent s) (change : ExternalDiskChange) :
    Coherent (s.observeDiskChange change) := by
  rcases FileSession.observeDiskChange_draft s.session change with ⟨hrefused, hstate⟩ | ⟨hok, hstate⟩
  · refine h.same hstate rfl rfl rfl rfl (fun hu => ?_) (fun i q hi _ => .inl hi)
      fun i q hi _ => .inl hi
    have hu' : (s.unresolved || ((s.session.observeDiskChange change).2.isNone && s.session.dirty)) =
        true := hu
    rw [hrefused, Bool.false_and, Bool.or_false] at hu'
    exact h.conflict hu'
  · refine h.same hstate rfl rfl rfl rfl (fun hu => ?_) (fun i q hi _ => .inl hi)
      fun i q hi _ => .inl hi
    have hu' : (s.unresolved || ((s.session.observeDiskChange change).2.isNone && s.session.dirty)) =
        true := hu
    rw [hok, Bool.true_and, Bool.or_eq_true] at hu'
    rcases hu' with hold | hdirty
    · exact ⟨(h.conflict hold).2, (h.conflict hold).2⟩
    · exact ⟨hdirty, hdirty⟩

theorem step_coherent (h : Coherent s) {input : FileSessionInput} (hfree : s.Undisturbed input) :
    Coherent (s.step input) := by
  have hsession : ∀ {session : FileSession}, session.draftState = s.session.draftState →
      Coherent { s with session := session } := fun hstate =>
    h.same hstate rfl rfl rfl rfl h.conflict (fun i q hi _ => .inl hi) fun i q hi _ => .inl hi
  cases input with
  | applyDraft bytes expected => exact h.applyDraft bytes expected
  | applyDraftPatch bytes offset expected => exact h.applyDraftPatch bytes offset expected
  | patchRead n answer =>
    rw [step]
    split
    next call hn =>
      split_ifs with hdone
      · exact h
      · exact h.patchRead n answer (hfree call hn (Bool.not_eq_true _ ▸ hdone))
    next => exact h
  | save expectedDisk expectedDraft => exact h.save expectedDisk expectedDraft
  | written n ok =>
    rw [step]
    split
    next call hn =>
      split_ifs with hdone
      · exact h
      · rw [Bool.not_eq_true] at hdone
        exact h.written hn hdone fun hok => hfree hok call hn hdone
    next => exact h
  | reload confirm expectedDisk expectedDraft => exact h.reload confirm expectedDisk expectedDraft
  | statted n answer =>
    rw [step]
    split
    next call hn =>
      split_ifs with hdone
      · exact h
      · rw [Bool.not_eq_true] at hdone
        exact h.statted hn hdone fun hanswer => hfree hanswer call hn hdone
    next => exact h
  | observeDiskChange change => exact h.observeDiskChange change
  | keepLocal =>
    rw [step, FileSession.keepLocal]
    split_ifs
    · exact h
    · have hstate : ({ s.session with conflict := false, watchState := .watching } :
          FileSession).draftState =
          (s.session.draftBytes, s.session.dirty, false, s.session.draftRevision) := rfl
      exact h.same hstate rfl rfl rfl rfl nofun (fun i q hi _ => .inl hi) fun i q hi _ => .inl hi
  | setWatchState state =>
    rw [step, FileSession.setWatchState]
    split_ifs
    · exact h
    · exact hsession rfl
  | close =>
    rw [step, FileSession.close]
    split_ifs with hclosed hdirty
    · exact hsession rfl
    · exact h
    · refine hsession ?_
      have hnone : s.session.draftBytes = none := by
        rw [h.dirty] at hdirty
        simpa using hdirty
      simp only [FileSession.draftState, hnone]

theorem Coherent.kept (h : Coherent s) : Kept s where
  edits := h.edits
  content := h.content
  wrote := h.wrote
  dirty := h.dirty
  conflict hu := by
    obtain ⟨hconflict, -⟩ := h.conflict hu
    refine ⟨hconflict, fun expectedDisk expectedDraft => ?_⟩
    rw [SessionCalls.save]
    split
    next hok =>
      rw [(FileSession.checkSave_ok hok).2] at hconflict
      cases hconflict
    next => rfl

end SessionCalls

end Invariant

section Runs
open SessionCalls

theorem session_runs (storage : FileSessionStorage) (options : FileSessionOptions)
    {session : FileSession} (hsession : FileSession.create storage options = .ok session)
    (inputs : List FileSessionInput) (h : Runs.Meets step Undisturbed (opened session) inputs) :
    Kept (Runs.after step (opened session) inputs) := by
  have hopened : Coherent (opened session) := opened_coherent (FileSession.create_draft hsession)
  have hstep : ∀ s input, Coherent s → s.Undisturbed input → Coherent (s.step input) :=
    fun s input hs hfree => step_coherent hs hfree
  exact (Runs.invariant_of_meets hstep hopened h).kept

def fileStorage : FileSessionStorage := ⟨true, true, true⟩

def fileOptions : FileSessionOptions := ⟨some 64, none, none, some [1, 2, 3]⟩

def aFile : FileSession :=
  { storage := fileStorage
    maxDraftBytes := 64
    diskRevision := 1
    draftRevision := 0
    baseDraftRevision := 0
    draftBaseDiskRevision := 1
    diskIdentity := none
    diskMtimeMs := none
    diskMode := none
    size := some 3
    draftBytes := none
    diskBytes := some [1, 2, 3]
    dirty := false
    conflict := false
    watchState := .watching }

def undisturbed : List FileSessionInput :=
  [.applyDraftPatch [9] 1 none, .patchRead 0 none, .observeDiskChange ⟨none, none, none⟩, .save none none,
    .keepLocal, .save none none, .written 0 true, .applyDraft [7] (some 1), .reload true none none,
    .statted 0 (some ⟨3, none, none, none⟩)]

theorem session_runs_undisturbed : Kept (Runs.after step (opened aFile) undisturbed) :=
  session_runs fileStorage fileOptions rfl undisturbed (by decide +kernel)

def overtaken : List FileSessionInput :=
  [.applyDraft [7] none, .save none none, .applyDraft [8] none, .written 0 true]

theorem overtaken_lost : (Runs.after step (opened aFile) overtaken).session.draftRevision = 2 ∧
    (Runs.after step (opened aFile) overtaken).heldNumbers = [] ∧
      ((Runs.after step (opened aFile) overtaken).writes.map fun w => w.2.numbers) = [[0]] ∧
        (Runs.after step (opened aFile) overtaken).replaced = [0] ∧
          (Runs.after step (opened aFile) overtaken).discarded = [] := by
  decide +kernel

theorem edit_lost : ¬ ∀ (storage : FileSessionStorage) (options : FileSessionOptions)
    (session : FileSession), FileSession.create storage options = .ok session →
      ∀ inputs, Kept (Runs.after step (opened session) inputs) := by
  intro h
  have hkept := h fileStorage fileOptions aFile rfl overtaken
  obtain ⟨hrevision, hheld, hwrites, hreplaced, hdiscarded⟩ := overtaken_lost
  rcases hkept.edits 1 (by rw [hrevision]; decide) with hin | ⟨w, hw, hin⟩ | hin | hin
  · rw [hheld] at hin
    cases hin
  · have hnumbers := List.mem_map_of_mem (f := fun w => w.2.numbers) hw
    rw [hwrites, List.mem_singleton] at hnumbers
    rw [hnumbers] at hin
    exact absurd hin (by decide)
  · rw [hreplaced] at hin
    exact absurd hin (by decide)
  · rw [hdiscarded] at hin
    cases hin

end Runs

end Terminay.Files
