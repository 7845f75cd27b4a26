import Terminay.Lib.Lists
import Terminay.Script.Unicode

/-!
# Entries of the automation run log

What the log keeps of a run is normalized: identifiers that are not identifiers, counts
that are not counts and texts past their bounds are dropped or cut. Normalizing an entry
of the log changes nothing.
-/

namespace Terminay.Automation
open Script

def maxSafe : ℤ := 2 ^ 53 - 1

def isCount (n : ℤ) : Bool := 0 ≤ n && n ≤ maxSafe

def isSafe (n : ℤ) : Bool := -maxSafe ≤ n && n ≤ maxSafe

def maxKeepHistoryDays : ℤ := 3650

def isDays (days minimum : ℤ) : Bool := minimum ≤ days && days ≤ maxKeepHistoryDays

def isIdUnit (u : UInt16) : Bool :=
  isDigit u || isLetter u || u = unit '.' || u = unit '_' || u = unit ':' || u = unit '-'

/-- `/^[A-Za-z0-9][A-Za-z0-9._:-]{0,127}$/` -/
def isId : Str → Bool
  | [] => false
  | u :: rest => (isDigit u || isLetter u) && (rest.length ≤ 127 && rest.all isIdUnit)

inductive TriggerKind where | schedule | event
  deriving DecidableEq

inductive EventKind where
  | agentFinished | agentNeedsInput | agentBlocked | terminalNeedsAttention
  | terminalCommandFinished | terminalIdle | projectOpened | projectClosed | deviceConnected
  deriving DecidableEq

inductive StartedBy where | trigger | user | mcp
  deriving DecidableEq

inductive RunStatus where | running | finished
  deriving DecidableEq

inductive RunOutcome where | succeeded | failed | timedOut | stopped | skipped
  deriving DecidableEq

inductive SkipReason where
  | previousRunStillRunning | subjectGone | concurrencyLimit | automationSpaceFull
  | executorUnavailable
  deriving DecidableEq

inductive Subject where
  | terminal (serverId projectId sessionId : Str) (sessionCreatedAt : Option ℤ)
      (title projectTitle : Option Str)
  | project (projectId : Str) (title : Option Str)
  | device (deviceId : Str) (name : Option Str)
  deriving DecidableEq

structure RunEntry where
  runId : Str
  automationId : Str
  triggerKind : TriggerKind
  event : Option EventKind
  firedAt : ℤ
  startedBy : StartedBy
  subject : Option Subject
  status : RunStatus
  outcome : Option RunOutcome
  skipReason : Option SkipReason
  reason : Option Str
  exitCode : Option ℤ
  startedAt : ℤ
  finishedAt : Option ℤ
  durationMs : Option ℤ
  sessionId : Option Str
  openedSessions : Option (List Str)
  outputTail : Option Str
  suppressedEvents : ℤ
  recordingId : Option Str
  deriving DecidableEq

def encodedLength (cs : List Char) : ℕ := (cs.flatMap String.utf8EncodeChar).length

def tailScalars (maxBytes : ℕ) : List Char → List Char
  | [] => []
  | c :: cs => if encodedLength (c :: cs) ≤ maxBytes then c :: cs else tailScalars maxBytes cs

/-- The last bytes of the UTF-8, from a code point on; the decoder drops a byte order mark. -/
def boundTail (text : Str) (maxBytes : ℕ) : Str :=
  if (textEncode text).length ≤ maxBytes then text
  else (dropByteOrderMark (tailScalars maxBytes (scalars text))).flatMap utf16

theorem tailScalars_fits (maxBytes : ℕ) (cs : List Char) :
    encodedLength (tailScalars maxBytes cs) ≤ maxBytes := by
  induction cs with
  | nil => exact Nat.zero_le _
  | cons c cs ih =>
    rw [tailScalars]
    split_ifs with hfits
    · exact hfits
    · exact ih

theorem dropByteOrderMark_length (cs : List Char) :
    encodedLength (dropByteOrderMark cs) ≤ encodedLength cs := by
  cases cs with
  | nil => exact le_rfl
  | cons c cs =>
    rw [dropByteOrderMark]
    split_ifs
    · simp [encodedLength]
    · exact le_rfl

theorem textEncode_utf16 (cs : List Char) :
    (textEncode (cs.flatMap utf16)).length = encodedLength cs := by
  have hself := scalars_append cs []
  simp only [List.append_nil, scalars] at hself
  rw [textEncode, hself, encodedLength]

theorem boundTail_fits (text : Str) (maxBytes : ℕ) :
    (textEncode (boundTail text maxBytes)).length ≤ maxBytes := by
  rw [boundTail]
  split_ifs with hfits
  · exact hfits
  · rw [textEncode_utf16]
    exact (dropByteOrderMark_length _).trans (tailScalars_fits maxBytes _)

def maxReasonLength : ℕ := 512
def maxTitleLength : ℕ := 256
def openedSessionsLimit : ℕ := 50

def sliceLast {α : Type} (limit : ℕ) (l : List α) : List α :=
  if limit = 0 then l else l.drop (l.length - limit)

def openedSessionsField (value : Option (List Str)) : Option (List Str) :=
  (value.map fun ids => sliceLast openedSessionsLimit (Lists.unique (ids.filter isId))).filter
    fun ids => ids ≠ []

def mergeOpenedSessions (entry : RunEntry) (earlier : Option (List Str)) : RunEntry :=
  if (earlier.getD []) = [] then entry
  else { entry with
    openedSessions := openedSessionsField (some (earlier.getD [] ++ entry.openedSessions.getD [])) }

def withOpenedSessions (entry : RunEntry) (added : List Str) : RunEntry :=
  if added = [] then entry
  else { entry with
    openedSessions := openedSessionsField (some (entry.openedSessions.getD [] ++ added)) }

def optionalTitle (title : Option Str) : Option Str := title.map (List.take maxTitleLength)

def normalizeSubject : Subject → Option Subject
  | .terminal serverId projectId sessionId sessionCreatedAt title projectTitle =>
    if (isId serverId && isId projectId && isId sessionId) = true then
      some (.terminal serverId projectId sessionId (sessionCreatedAt.filter isCount)
        (optionalTitle title) (optionalTitle projectTitle))
    else none
  | .project projectId title =>
    if isId projectId = true then some (.project projectId (optionalTitle title)) else none
  | .device deviceId name =>
    if isId deviceId = true then some (.device deviceId (optionalTitle name)) else none

def normalizedDuration (entry : RunEntry) : Option ℤ :=
  ((entry.durationMs.filter isCount).or
    ((entry.finishedAt.filter isCount).map fun finishedAt => max 0 (finishedAt - entry.startedAt)))

/-- What is kept of an entry whose identifiers, times and subject are in order. -/
def keptEntry (tailBytes : ℕ) (entry : RunEntry) (subject : Option Subject) : RunEntry :=
  { entry with
    subject
    reason := entry.reason.map (List.take maxReasonLength)
    exitCode := entry.exitCode.filter isSafe
    finishedAt := entry.finishedAt.filter isCount
    durationMs := normalizedDuration entry
    sessionId := entry.sessionId.filter isId
    openedSessions := openedSessionsField entry.openedSessions
    outputTail := entry.outputTail.map fun text => boundTail text tailBytes
    suppressedEvents := if isCount entry.suppressedEvents = true then entry.suppressedEvents else 0
    recordingId := entry.recordingId.filter isId }

def normalizeEntry (tailBytes : ℕ) (entry : RunEntry) : Option RunEntry :=
  if (isId entry.runId && isId entry.automationId && isCount entry.firedAt &&
      isCount entry.startedAt) = true then
    match entry.subject with
    | none => some (keptEntry tailBytes entry none)
    | some subject =>
      (normalizeSubject subject).map fun subject => keptEntry tailBytes entry (some subject)
  else none

section Normal

variable {tailBytes : ℕ} {entry : RunEntry}

structure OpenedSessions (ids : List Str) : Prop where
  nonempty : ids ≠ []
  nodup : ids.Nodup
  isId : ∀ id ∈ ids, isId id = true
  bounded : ids.length ≤ openedSessionsLimit

structure RunEntry.Normal (tailBytes : ℕ) (entry : RunEntry) : Prop where
  runId : isId entry.runId = true
  automationId : isId entry.automationId = true
  firedAt : isCount entry.firedAt = true
  startedAt : isCount entry.startedAt = true
  subject : ∀ subject ∈ entry.subject, normalizeSubject subject = some subject
  reason : ∀ reason ∈ entry.reason, reason.length ≤ maxReasonLength
  exitCode : ∀ code ∈ entry.exitCode, isSafe code = true
  finishedAt : ∀ time ∈ entry.finishedAt, isCount time = true
  durationMs : ∀ duration ∈ entry.durationMs, isCount duration = true
  timed : entry.durationMs = none → entry.finishedAt = none
  sessionId : ∀ id ∈ entry.sessionId, isId id = true
  openedSessions : ∀ ids ∈ entry.openedSessions, OpenedSessions ids
  outputTail : ∀ text ∈ entry.outputTail, (textEncode text).length ≤ tailBytes
  suppressedEvents : isCount entry.suppressedEvents = true
  recordingId : ∀ id ∈ entry.recordingId, isId id = true

theorem filter_of_all {α : Type} {p : α → Bool} {o : Option α} (h : ∀ a ∈ o, p a = true) :
    o.filter p = o := by
  cases o with
  | none => rfl
  | some a => simp [Option.filter, h a rfl]

theorem all_of_filter {α : Type} {p : α → Bool} {o : Option α} : ∀ a ∈ o.filter p, p a = true := by
  intro a ha
  exact (Option.mem_filter_iff.mp ha).2

theorem map_of_all {α : Type} {f : α → α} {o : Option α} (h : ∀ a ∈ o, f a = a) : o.map f = o := by
  cases o with
  | none => rfl
  | some a => rw [Option.map_some, h a rfl]

theorem sliceLast_length {α : Type} {limit : ℕ} (hlimit : 0 < limit) (l : List α) :
    (sliceLast limit l).length ≤ limit := by
  rw [sliceLast, if_neg (by omega), List.length_drop]
  omega

theorem sliceLast_of_le {α : Type} {limit : ℕ} {l : List α} (h : limit = 0 ∨ l.length ≤ limit) :
    sliceLast limit l = l := by
  rw [sliceLast]
  split_ifs with hzero
  · rfl
  · rw [Nat.sub_eq_zero_of_le (h.resolve_left hzero), List.drop_zero]

theorem sliceLast_sublist {α : Type} (limit : ℕ) (l : List α) : (sliceLast limit l).Sublist l := by
  rw [sliceLast]
  split_ifs
  · exact .refl l
  · exact List.drop_sublist _ l

theorem openedSessionsField_opened (value : Option (List Str)) :
    ∀ ids ∈ openedSessionsField value, OpenedSessions ids := by
  intro ids hids
  obtain ⟨hsome, hne⟩ := Option.mem_filter_iff.mp hids
  obtain ⟨given, -, rfl⟩ := Option.mem_map.mp hsome
  have hsub := sliceLast_sublist openedSessionsLimit (Lists.unique (given.filter isId))
  refine ⟨by simpa using hne, hsub.nodup (Lists.nodup_unique _), fun id hid => ?_,
    sliceLast_length (by decide) _⟩
  exact (List.mem_filter.mp (Lists.mem_unique.mp (hsub.subset hid))).2

theorem openedSessionsField_self {value : Option (List Str)}
    (h : ∀ ids ∈ value, OpenedSessions ids) : openedSessionsField value = value := by
  rcases value with _ | ids
  · rfl
  · have hids := h ids rfl
    have hfilter : ids.filter isId = ids := List.filter_eq_self.mpr hids.isId
    rw [openedSessionsField, Option.map_some, hfilter, Lists.unique_of_nodup hids.nodup,
      sliceLast_of_le (.inr hids.bounded)]
    simp [Option.filter, hids.nonempty]

theorem optionalTitle_self (title : Option Str) :
    optionalTitle (optionalTitle title) = optionalTitle title := by
  rw [optionalTitle, optionalTitle, Option.map_map]
  congr 1
  funext text
  simp [List.take_take]

theorem normalizeSubject_self {subject kept : Subject} (h : normalizeSubject subject = some kept) :
    normalizeSubject kept = some kept := by
  cases subject with
  | terminal serverId projectId sessionId sessionCreatedAt title projectTitle =>
    rw [normalizeSubject] at h
    split_ifs at h with hids
    cases h
    rw [normalizeSubject, if_pos hids, optionalTitle_self, optionalTitle_self,
      filter_of_all all_of_filter]
  | project projectId title =>
    rw [normalizeSubject] at h
    split_ifs at h with hid
    cases h
    rw [normalizeSubject, if_pos hid, optionalTitle_self]
  | device deviceId name =>
    rw [normalizeSubject] at h
    split_ifs at h with hid
    cases h
    rw [normalizeSubject, if_pos hid, optionalTitle_self]

theorem isCount_iff {n : ℤ} : isCount n = true ↔ 0 ≤ n ∧ n ≤ maxSafe := by simp [isCount]

theorem isCount_elapsed {finishedAt startedAt : ℤ} (hf : isCount finishedAt = true)
    (hs : isCount startedAt = true) : isCount (max 0 (finishedAt - startedAt)) = true := by
  rw [isCount_iff] at hf hs ⊢
  omega

theorem normalizedDuration_count (hs : isCount entry.startedAt = true) :
    ∀ duration ∈ normalizedDuration entry, isCount duration = true := by
  intro duration hduration
  rw [normalizedDuration] at hduration
  rcases hgiven : entry.durationMs.filter isCount with _ | given
  · rw [hgiven, Option.none_or] at hduration
    obtain ⟨finishedAt, hfinished, rfl⟩ := Option.mem_map.mp hduration
    exact isCount_elapsed (all_of_filter finishedAt hfinished) hs
  · rw [hgiven, Option.some_or] at hduration
    cases hduration
    exact all_of_filter duration hgiven

theorem keptEntry_normal (hids : (isId entry.runId && isId entry.automationId &&
      isCount entry.firedAt && isCount entry.startedAt) = true) {subject : Option Subject}
    (hsubject : ∀ s ∈ subject, normalizeSubject s = some s) :
    (keptEntry tailBytes entry subject).Normal tailBytes := by
  simp only [Bool.and_eq_true] at hids
  obtain ⟨⟨⟨hrun, hautomation⟩, hfired⟩, hstarted⟩ := hids
  refine ⟨hrun, hautomation, hfired, hstarted, hsubject, ?_, all_of_filter, all_of_filter,
    normalizedDuration_count hstarted, ?_, all_of_filter, openedSessionsField_opened _, ?_, ?_,
    all_of_filter⟩
  · intro reason hreason
    obtain ⟨given, -, rfl⟩ := Option.mem_map.mp hreason
    exact List.length_take_le _ _
  · intro hduration
    have hnone : normalizedDuration entry = none := hduration
    rw [normalizedDuration, Option.or_eq_none_iff] at hnone
    exact Option.map_eq_none_iff.mp hnone.2
  · intro text htext
    obtain ⟨given, -, rfl⟩ := Option.mem_map.mp htext
    exact boundTail_fits given tailBytes
  · show isCount (if _ then _ else _) = true
    split_ifs with hcount
    · exact hcount
    · rfl

theorem normalizeEntry_normal {kept : RunEntry} (h : normalizeEntry tailBytes entry = some kept) :
    kept.Normal tailBytes ∧ kept.runId = entry.runId ∧
      kept.automationId = entry.automationId := by
  rw [normalizeEntry] at h
  split_ifs at h with hids
  rcases hsubject : entry.subject with _ | subject
  · rw [hsubject] at h
    cases h
    exact ⟨keptEntry_normal hids (fun s hs => (by cases hs)), rfl, rfl⟩
  · rw [hsubject] at h
    obtain ⟨given, hgiven, rfl⟩ := Option.map_eq_some_iff.mp h
    refine ⟨keptEntry_normal hids fun s hs => ?_, rfl, rfl⟩
    cases hs
    exact normalizeSubject_self hgiven

theorem normalizedDuration_self (h : entry.Normal tailBytes) :
    normalizedDuration entry = entry.durationMs := by
  rw [normalizedDuration, filter_of_all h.durationMs, filter_of_all h.finishedAt]
  rcases hduration : entry.durationMs with _ | duration
  · rw [h.timed hduration]
    rfl
  · rfl

theorem RunEntry.Normal.normalize (h : entry.Normal tailBytes) :
    normalizeEntry tailBytes entry = some entry := by
  have hkept : ∀ subject, entry.subject = subject → keptEntry tailBytes entry subject = entry := by
    rintro subject rfl
    have htail : entry.outputTail.map (fun text => boundTail text tailBytes) = entry.outputTail :=
      map_of_all fun text htext => if_pos (h.outputTail text htext)
    have hreason : entry.reason.map (List.take maxReasonLength) = entry.reason :=
      map_of_all fun text htext => List.take_of_length_le (h.reason text htext)
    rw [keptEntry, hreason, htail, filter_of_all h.exitCode, filter_of_all h.finishedAt,
      normalizedDuration_self h, filter_of_all h.sessionId, openedSessionsField_self h.openedSessions,
      filter_of_all h.recordingId, if_pos h.suppressedEvents]
  have hids : (isId entry.runId && isId entry.automationId && isCount entry.firedAt &&
      isCount entry.startedAt) = true := by
    simp [h.runId, h.automationId, h.firedAt, h.startedAt]
  rw [normalizeEntry, if_pos hids]
  rcases hsubject : entry.subject with _ | subject
  · exact congrArg some (hkept none hsubject)
  · simp only
    rw [h.subject subject hsubject, Option.map_some, hkept (some subject) hsubject]

theorem RunEntry.Normal.merge (h : entry.Normal tailBytes) (earlier : Option (List Str)) :
    (mergeOpenedSessions entry earlier).Normal tailBytes := by
  rw [mergeOpenedSessions]
  split_ifs
  · exact h
  · have hopened := openedSessionsField_opened
      (some (earlier.getD [] ++ entry.openedSessions.getD []))
    exact { h with openedSessions := hopened }

theorem RunEntry.Normal.opened (h : entry.Normal tailBytes) (added : List Str) :
    (withOpenedSessions entry added).Normal tailBytes := by
  rw [withOpenedSessions]
  split_ifs
  · exact h
  · have hopened := openedSessionsField_opened (some (entry.openedSessions.getD [] ++ added))
    exact { h with openedSessions := hopened }

theorem RunEntry.Normal.suppressed (h : entry.Normal tailBytes) {count : ℤ}
    (hcount : isCount count = true) :
    ({ entry with suppressedEvents := count } : RunEntry).Normal tailBytes :=
  { h with suppressedEvents := hcount }

end Normal

end Terminay.Automation
