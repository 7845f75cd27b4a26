import Terminay.Lib.Runs
import Terminay.Script.Unicode

/-!
# The draft of a file session

A file session holds the draft of one file and what it knows of the disk. `save`,
`reload` and a patch of a file without a draft ask the storage first: what they do
before and after its answer are two functions here.
-/

namespace Terminay.Files
open Script

inductive FileServiceErrorCode where
  | invalidRange | draftTooLarge | revisionConflict | confirmationRequired | savePrecondition
  | notDirty | writeFailed | sessionClosed
  deriving DecidableEq

structure FileServiceError where
  code : FileServiceErrorCode
  message : Str
  details : List (Str × ℤ)
  deriving DecidableEq

/-- A call answers with a failure or throws. -/
inductive Refusal where
  | failed (error : FileServiceError)
  | thrown (error : FileServiceError)
  | fault (message : Str)
  deriving DecidableEq

inductive FileWatchState where
  | watching | conflict | unavailable | closed
  deriving DecidableEq

structure FileMetadata where
  size : ℤ
  mtimeMs : Option ℚ
  mode : Option ℤ
  identity : Option Str

structure ExternalDiskChange where
  bytes : Option Bytes
  metadata : Option FileMetadata
  diskRevision : Option ℤ

structure FileSessionStorage where
  stat : Bool
  readFile : Bool
  readRange : Bool

structure FileSessionOptions where
  maxDraftBytes : Option ℤ
  diskRevision : Option ℤ
  initialMetadata : Option FileMetadata
  initialBytes : Option Bytes

structure FileSession where
  storage : FileSessionStorage
  maxDraftBytes : ℕ
  diskRevision : ℕ
  draftRevision : ℕ
  baseDraftRevision : ℕ
  draftBaseDiskRevision : ℕ
  diskIdentity : Option Str
  diskMtimeMs : Option ℚ
  diskMode : Option ℤ
  size : Option ℤ
  draftBytes : Option Bytes
  diskBytes : Option Bytes
  dirty : Bool
  conflict : Bool
  watchState : FileWatchState

/-- `Number.isSafeInteger(value) && value >= 0`. -/
def isRevision (value : ℤ) : Bool := 0 ≤ value ∧ value ≤ maxSafeInteger

def draftTooLarge (message : String) (max : ℕ) : FileServiceError :=
  ⟨.draftTooLarge, js message, [(js "max", max)]⟩

def sessionClosed : FileServiceError := ⟨.sessionClosed, js "file session is closed", []⟩

def revisionFailure (code : FileServiceErrorCode) (message : String) (expected actual : ℤ) :
    FileServiceError :=
  ⟨code, js message, [(js "expected", expected), (js "actual", actual)]⟩

def checkMetadata (metadata : FileMetadata) : Option Str :=
  if isRevision metadata.size = false then some (js "file metadata size is invalid")
  else if metadata.mtimeMs.any (fun mtimeMs => decide (mtimeMs < 0)) = true then
    some (js "file metadata mtime is invalid")
  else if metadata.mode.any (fun mode => !isRevision mode) = true then
    some (js "file metadata mode is invalid")
  else if metadata.identity.any (fun identity => decide (256 < identity.length) || hasNul identity) =
      true then
    some (js "file metadata identity is invalid")
  else none

def overlay (current : Bytes) (offset : ℕ) (bytes : Bytes) : Bytes :=
  (current ++ List.replicate (offset - current.length) 0).take offset ++ bytes ++
    current.drop (offset + bytes.length)

namespace FileSession

def checkExpected (code : FileServiceErrorCode) (message : String) (expected : Option ℤ)
    (actual : ℕ) : Option Refusal :=
  match expected with
  | none => none
  | some value =>
    if isRevision value = false then
      some (.fault (js "expected revision must be a non-negative safe integer"))
    else if value ≠ actual then some (.failed (revisionFailure code message value actual))
    else none

def clearHostMetadata (s : FileSession) : FileSession :=
  { s with diskIdentity := none, diskMtimeMs := none, diskMode := none }

def setDiskMetadata (s : FileSession) (metadata : Option FileMetadata) : FileSession :=
  match metadata with
  | some metadata =>
    { s with
      size := some metadata.size
      diskIdentity := metadata.identity
      diskMtimeMs := metadata.mtimeMs
      diskMode := metadata.mode }
  | none => s

def create (storage : FileSessionStorage) (options : FileSessionOptions) :
    Except Refusal FileSession :=
  let max := options.maxDraftBytes.getD (100 * 1024 * 1024)
  let diskRevision := options.diskRevision.getD 1
  if isRevision max = false ∨ max = 0 then
    .error (.fault (js "maxDraftBytes must be a positive safe integer"))
  else if isRevision diskRevision = false then
    .error (.fault (js "diskRevision must be a non-negative safe integer"))
  else
    match options.initialMetadata.bind checkMetadata with
    | some message => .error (.fault message)
    | none =>
      let session : FileSession :=
        { storage := storage
          maxDraftBytes := max.toNat
          diskRevision := diskRevision.toNat
          draftRevision := 0
          baseDraftRevision := 0
          draftBaseDiskRevision := diskRevision.toNat
          diskIdentity := none
          diskMtimeMs := none
          diskMode := none
          size := none
          draftBytes := none
          diskBytes := none
          dirty := false
          conflict := false
          watchState := .watching }
      let session := session.setDiskMetadata options.initialMetadata
      match options.initialBytes with
      | none => .ok session
      | some initial =>
        if max < initial.length then
          .error (.thrown (draftTooLarge "initial file exceeds draft limit" max.toNat))
        else .ok { session with diskBytes := some initial, size := some initial.length }

def applyDraft (s : FileSession) (bytes : Bytes) (expected : Option ℤ) :
    Except Refusal FileSession :=
  let revision := expected.getD s.draftRevision
  if s.watchState = .closed then .error (.failed sessionClosed)
  else if isRevision revision = false then
    .error (.fault (js "expectedDraftRevision must be a non-negative safe integer"))
  else if revision ≠ s.draftRevision then
    .error (.failed (revisionFailure .revisionConflict "draft revision is stale" revision
      s.draftRevision))
  else if s.maxDraftBytes < bytes.length then
    .error (.failed (draftTooLarge "draft exceeds the configured limit" s.maxDraftBytes))
  else
    .ok
      { s with
        draftBytes := some bytes
        draftRevision := s.draftRevision + 1
        dirty := true
        draftBaseDiskRevision := s.diskRevision
        watchState := if s.conflict = true then .conflict else .watching }

def readWholeForDraft (s : FileSession) : Except Refusal (Option Bytes) :=
  match s.diskBytes with
  | some bytes => .ok (some bytes)
  | none =>
    if s.storage.readFile = true then .ok none
    else if s.storage.readRange = false then
      .error (.fault (js "storage cannot read complete file for draft patch"))
    else if s.size.any (fun size : ℤ => decide (size ≤ s.maxDraftBytes)) = true then .ok none
    else .error (.thrown (draftTooLarge "file exceeds the draft limit" s.maxDraftBytes))

def checkRead (s : FileSession) (bytes : Bytes) : Except Refusal Bytes :=
  if s.maxDraftBytes < bytes.length then
    .error (.thrown (draftTooLarge "file exceeds the draft limit" s.maxDraftBytes))
  else .ok bytes

def patchDraft (s : FileSession) (current : Bytes) (offset : ℕ) (bytes : Bytes)
    (expected : Option ℤ) : Except Refusal FileSession :=
  if s.maxDraftBytes < offset + bytes.length then
    .error (.failed (draftTooLarge "draft exceeds the configured limit" s.maxDraftBytes))
  else if s.maxDraftBytes < max current.length (offset + bytes.length) then
    .error (.failed (draftTooLarge "draft exceeds the configured limit" s.maxDraftBytes))
  else s.applyDraft (overlay current offset bytes) expected

def checkPatch (s : FileSession) (offset : ℤ) : Option Refusal :=
  if s.watchState = .closed then some (.failed sessionClosed)
  else if isRevision offset = false then
    some (.thrown ⟨.invalidRange, js "draft patch offset is invalid", []⟩)
  else none

def setDiskContent (s : FileSession) (change : ExternalDiskChange) : FileSession :=
  match change.bytes with
  | some bytes => { s with diskBytes := some bytes, size := some bytes.length }
  | none =>
    { s with
      diskBytes := none
      size := if change.metadata.isNone = true then none else s.size }

def noteChange (s : FileSession) : FileSession :=
  if s.dirty = true then { s with conflict := true, watchState := .conflict }
  else
    { s with
      conflict := false
      watchState := .watching
      draftBaseDiskRevision := s.diskRevision }

def observeDiskChange (s : FileSession) (change : ExternalDiskChange) :
    FileSession × Option Refusal :=
  let nextRevision := change.diskRevision.getD (s.diskRevision + 1)
  if s.watchState = .closed then (s, some (.thrown sessionClosed))
  else if isRevision nextRevision = false ∨ nextRevision ≤ s.diskRevision then
    (s, some (.thrown (revisionFailure .revisionConflict "disk revision is stale"
      (s.diskRevision + 1) nextRevision)))
  else
    let cleared : FileSession := { s with diskRevision := nextRevision.toNat }.clearHostMetadata
    match change.metadata.bind checkMetadata with
    | some message => (cleared, some (.fault message))
    | none => (((cleared.setDiskMetadata change.metadata).setDiskContent change).noteChange, none)

def keepLocal (s : FileSession) : Except Refusal FileSession :=
  if s.watchState = .closed then .error (.failed sessionClosed)
  else .ok { s with conflict := false, watchState := .watching }

def checkReload (s : FileSession) (confirm : Bool) (expectedDisk expectedDraft : Option ℤ) :
    Option Refusal :=
  if s.watchState = .closed then some (.failed sessionClosed)
  else if s.dirty = true ∧ confirm = false then
    some (.failed ⟨.confirmationRequired, js "reloading would discard local edits", []⟩)
  else
    (checkExpected .revisionConflict "disk revision is stale" expectedDisk s.diskRevision).or
      (checkExpected .revisionConflict "draft revision is stale" expectedDraft s.draftRevision)

def reloaded (s : FileSession) (metadata : Option FileMetadata) : FileSession × Option Refusal :=
  let clean : FileSession :=
    { s.clearHostMetadata with
      diskBytes := none
      draftBytes := none
      size := none
      dirty := false
      conflict := false
      baseDraftRevision := s.draftRevision
      draftBaseDiskRevision := s.diskRevision
      watchState := .watching }
  match metadata.bind checkMetadata with
  | some message => (clean, some (.fault message))
  | none => (clean.setDiskMetadata metadata, none)

def checkSave (s : FileSession) (expectedDisk expectedDraft : Option ℤ) : Except Refusal Bytes :=
  if s.watchState = .closed then .error (.failed sessionClosed)
  else
    match (checkExpected .savePrecondition "disk revision save precondition failed" expectedDisk
        s.diskRevision).or
      (checkExpected .savePrecondition "draft revision save precondition failed" expectedDraft
        s.draftRevision) with
    | some refusal => .error refusal
    | none =>
      match s.draftBytes with
      | none => .error (.failed ⟨.notDirty, js "file has no local edits", []⟩)
      | some bytes =>
        if s.dirty = false then .error (.failed ⟨.notDirty, js "file has no local edits", []⟩)
        else if s.conflict = true then
          .error (.failed
            ⟨.savePrecondition, js "file has an unresolved external conflict", []⟩)
        else .ok bytes

def saved (s : FileSession) (bytes : Bytes) : FileSession :=
  { s.clearHostMetadata with
    diskRevision := s.diskRevision + 1
    diskBytes := some bytes
    size := some bytes.length
    draftBytes := none
    dirty := false
    conflict := false
    baseDraftRevision := s.draftRevision
    draftBaseDiskRevision := s.diskRevision + 1
    watchState := .watching }

def setWatchState (s : FileSession) (state : FileWatchState) : Except Refusal FileSession :=
  if s.watchState = .closed then .error (.thrown sessionClosed)
  else .ok { s with watchState := state }

def close (s : FileSession) : Except Refusal FileSession :=
  if s.watchState = .closed then .ok s
  else if s.dirty = true then
    .error (.failed ⟨.savePrecondition,
      js "dirty file requires explicit save, reload, or keep-local before close", []⟩)
  else .ok { s with watchState := .closed, diskBytes := none, draftBytes := none }

end FileSession

/-! ## Calls that wait for the storage -/

inductive Edit where
  | draft (bytes : Bytes)
  | patch (offset : ℕ) (bytes : Bytes)

structure Version where
  base : Bytes
  edits : List (ℕ × Edit)

def Edit.apply (current : Bytes) : Edit → Bytes
  | .draft bytes => bytes
  | .patch offset bytes => overlay current offset bytes

def Version.content (v : Version) : Bytes := v.edits.foldl (fun current e => e.2.apply current) v.base

def Version.numbers (v : Version) : List ℕ := v.edits.map Prod.fst

structure PatchCall where
  offset : ℕ
  bytes : Bytes
  expected : Option ℤ
  source : Option Bytes
  done : Bool

structure SaveCall where
  bytes : Bytes
  version : Version
  draftRevision : ℕ
  done : Bool

structure ReloadCall where
  confirm : Bool
  draftRevision : ℕ
  done : Bool

/-- A session with its calls. `held` is the version in the draft, `writes` the successful saves;
`replaced` and `discarded` are edits that a later draft or a confirmed reload took out of it.
`unresolved`: a disk change was observed over a draft, without `keepLocal` or `reload` since. -/
structure SessionCalls where
  session : FileSession
  patches : List PatchCall
  saves : List SaveCall
  reloads : List ReloadCall
  held : Option Version
  writes : List (Bytes × Version)
  replaced : List ℕ
  discarded : List ℕ
  unresolved : Bool

inductive FileSessionInput where
  | applyDraft (bytes : Bytes) (expected : Option ℤ)
  | applyDraftPatch (bytes : Bytes) (offset : ℤ) (expected : Option ℤ)
  | patchRead (n : ℕ) (answer : Option Bytes)
  | save (expectedDisk expectedDraft : Option ℤ)
  | written (n : ℕ) (ok : Bool)
  | reload (confirm : Bool) (expectedDisk expectedDraft : Option ℤ)
  | statted (n : ℕ) (answer : Option FileMetadata)
  | observeDiskChange (change : ExternalDiskChange)
  | keepLocal
  | setWatchState (state : FileWatchState)
  | close

namespace SessionCalls

def opened (session : FileSession) : SessionCalls := ⟨session, [], [], [], none, [], [], [], false⟩

def heldNumbers (s : SessionCalls) : List ℕ := (s.held.map Version.numbers).getD []

def applyDraft (s : SessionCalls) (bytes : Bytes) (expected : Option ℤ) : SessionCalls :=
  match s.session.applyDraft bytes expected with
  | .ok session =>
    { s with
      session := session
      held := some ⟨[], [(s.session.draftRevision, .draft bytes)]⟩
      replaced := s.replaced ++ s.heldNumbers }
  | .error _ => s

def patchDraft (s : SessionCalls) (version : Version) (current : Bytes) (offset : ℕ) (bytes : Bytes)
    (expected : Option ℤ) : SessionCalls :=
  match s.session.patchDraft current offset bytes expected with
  | .ok session =>
    { s with
      session := session
      held := some ⟨version.base,
        version.edits ++ [(s.session.draftRevision, .patch offset bytes)]⟩ }
  | .error _ => s

def applyDraftPatch (s : SessionCalls) (bytes : Bytes) (offset : ℤ) (expected : Option ℤ) : SessionCalls :=
  if (s.session.checkPatch offset).isSome = true then s
  else
    match s.session.draftBytes with
    | some current =>
      s.patchDraft (s.held.getD ⟨current, []⟩) current offset.toNat bytes expected
    | none =>
      match s.session.readWholeForDraft with
      | .ok source =>
        { s with patches := s.patches ++ [⟨offset.toNat, bytes, expected, source, false⟩] }
      | .error _ => s

def patchRead (s : SessionCalls) (n : ℕ) (call : PatchCall) (answer : Option Bytes) : SessionCalls :=
  let finished : SessionCalls := { s with patches := s.patches.set n { call with done := true } }
  match call.source with
  | some bytes => finished.patchDraft ⟨bytes, []⟩ bytes call.offset call.bytes call.expected
  | none =>
    match answer.map s.session.checkRead with
    | some (.ok bytes) => finished.patchDraft ⟨bytes, []⟩ bytes call.offset call.bytes call.expected
    | _ => finished

def save (s : SessionCalls) (expectedDisk expectedDraft : Option ℤ) : SessionCalls :=
  match s.session.checkSave expectedDisk expectedDraft with
  | .ok bytes =>
    { s with
      saves := s.saves ++ [⟨bytes, s.held.getD ⟨bytes, []⟩, s.session.draftRevision, false⟩] }
  | .error _ => s

def written (s : SessionCalls) (n : ℕ) (call : SaveCall) (ok : Bool) : SessionCalls :=
  let finished : SessionCalls := { s with saves := s.saves.set n { call with done := true } }
  if ok = true then
    { finished with
      session := s.session.saved call.bytes
      held := none
      writes := s.writes ++ [(call.bytes, call.version)] }
  else finished

def reloaded (s : SessionCalls) (confirm : Bool) (draftRevision : ℕ) (metadata : Option FileMetadata) :
    SessionCalls :=
  { s with
    session := (s.session.reloaded metadata).1
    held := none
    discarded := s.discarded ++
      if confirm = true then s.heldNumbers.filter fun n => n < draftRevision else []
    unresolved := false }

def reload (s : SessionCalls) (confirm : Bool) (expectedDisk expectedDraft : Option ℤ) : SessionCalls :=
  if (s.session.checkReload confirm expectedDisk expectedDraft).isSome = true then s
  else if s.session.storage.stat = true then
    { s with reloads := s.reloads ++ [⟨confirm, s.session.draftRevision, false⟩] }
  else s.reloaded confirm s.session.draftRevision none

def statted (s : SessionCalls) (n : ℕ) (call : ReloadCall) (answer : Option FileMetadata) : SessionCalls :=
  let finished : SessionCalls := { s with reloads := s.reloads.set n { call with done := true } }
  match answer with
  | some metadata => finished.reloaded call.confirm call.draftRevision (some metadata)
  | none => finished

def observeDiskChange (s : SessionCalls) (change : ExternalDiskChange) : SessionCalls :=
  let (session, refusal) := s.session.observeDiskChange change
  { s with
    session := session
    unresolved := s.unresolved || (refusal.isNone && s.session.dirty) }

def step (s : SessionCalls) : FileSessionInput → SessionCalls
  | .applyDraft bytes expected => s.applyDraft bytes expected
  | .applyDraftPatch bytes offset expected => s.applyDraftPatch bytes offset expected
  | .patchRead n answer =>
    match s.patches[n]? with
    | some call => if call.done = true then s else s.patchRead n call answer
    | none => s
  | .save expectedDisk expectedDraft => s.save expectedDisk expectedDraft
  | .written n ok =>
    match s.saves[n]? with
    | some call => if call.done = true then s else s.written n call ok
    | none => s
  | .reload confirm expectedDisk expectedDraft => s.reload confirm expectedDisk expectedDraft
  | .statted n answer =>
    match s.reloads[n]? with
    | some call => if call.done = true then s else s.statted n call answer
    | none => s
  | .observeDiskChange change => s.observeDiskChange change
  | .keepLocal =>
    match s.session.keepLocal with
    | .ok session => { s with session := session, unresolved := false }
    | .error _ => s
  | .setWatchState state =>
    match s.session.setWatchState state with
    | .ok session => { s with session := session }
    | .error _ => s
  | .close =>
    match s.session.close with
    | .ok session => { s with session := session }
    | .error _ => s

end SessionCalls

end Terminay.Files
