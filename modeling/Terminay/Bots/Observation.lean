import Terminay.Bots.Checks
import Terminay.Protocol.CanonicalJson

/-!
# Observations of a source

A source reports what it saw; `evaluateObservation` compares it with the checkpoint of
its trigger and answers the next checkpoint and the events of the difference, or fails.
`JSON.parse` and the digest are the platform's.
-/

namespace Terminay.Bots
open Script Protocol Outcome

inductive BotInitialObservation where | process | baseline
  deriving DecidableEq

inductive BotSourceMatch where
  | changed
  | contains (text : Str) (repeated : Bool)
  | regex (text : Str) (repeated : Bool)
  | exit (code : ℤ) (repeated : Bool)
  | items (items identity : Str) (initial : Option BotInitialObservation)

inductive BotObservationSource where
  | command (matching : Option BotSourceMatch)
  | http (select : Option Str) (matching : Option BotSourceMatch)
  | sse
  | files

inductive BotSourceState where
  | disabled | watching | connected | waiting | checking | healthy | retrying | blocked | failed
  deriving DecidableEq

structure BotSourceHealth where
  state : BotSourceState
  lastAttempt : Option ℤ
  lastSuccess : Option ℤ
  lastFired : Option ℤ
  nextRetry : Option ℤ
  error : Option Str
  cause : Option Str
  gap : Option Str
  remembered : ℕ

structure RecoveryRange where
  after : ℤ
  through : ℤ

structure SourceCheckpoint where
  generation : Id24
  initialized : Bool
  baseline : Option Digest
  matching : Bool
  ids : List Str
  cursor : Option Str
  snapshot : Option (List (Str × Str))
  sequence : ℕ
  health : BotSourceHealth
  resumeBaseline : Bool
  recovery : Option RecoveryRange
  failureEpisode : Bool

def initialHealth : BotSourceHealth :=
  ⟨.disabled, none, none, none, none, none, none, none, 0⟩

def initialCheckpoint (generation : Id24) : SourceCheckpoint where
  generation := generation
  initialized := false
  baseline := none
  matching := false
  ids := []
  cursor := none
  snapshot := none
  sequence := 0
  health := initialHealth
  resumeBaseline := false
  recovery := none
  failureEpisode := false

structure Observation (ν : Type) where
  stdout : Option Str
  stderr : Option Str
  exitCode : Option ℤ
  body : Option Str
  matched : Option Bool
  notModified : Option Bool
  data : Option (Json ν)
  eventId : Option Str
  filtered : Option Bool
  snapshot : Option (List (Str × Str))
  changes : Option (List Str)
  omitted : Option (Json ν)

structure SourceEvent (ν : Type) where
  payload : Json ν
  identity : Option Str

/-- What a call on a source can fail with, the state file being unreadable or not written too. -/
inductive SourceError where
  | bot (error : BotError)
  | unparseable
  | unreadable
  | unwritten
  deriving DecidableEq

variable {ν : Type} [Engine ν]

def observationFields : List Str :=
  ["stdout", "stderr", "exitCode", "body", "matched", "notModified", "data", "eventId", "filtered",
    "snapshot", "changes", "omitted", "status"].map js

def textField (fields : List (Str × Json ν)) (key : String) (limit : ℕ) :
    Except BotError (Option Str) :=
  match Entries.get fields (js key) with
  | none => .ok none
  | some (.str s) =>
    if limit < utf8Length s then .error ⟨.resource, js "Invalid or oversized source result"⟩
    else .ok (some s)
  | some _ => .error ⟨.resource, js "Invalid or oversized source result"⟩

def flagField (fields : List (Str × Json ν)) (key : String) : Except BotError (Option Bool) :=
  match Entries.get fields (js key) with
  | none => .ok none
  | some (.bool b) => .ok (some b)
  | some _ => .error ⟨.validation, js "Invalid source result flag"⟩

def exitCodeField (fields : List (Str × Json ν)) : Except BotError (Option ℤ) :=
  match Entries.get fields (js "exitCode") with
  | none => .ok none
  | some value =>
    match value.num?.bind safeInteger? with
    | none => .error ⟨.validation, js "Invalid exit code"⟩
    | some code =>
      if code < -255 ∨ 255 < code then .error ⟨.validation, js "Invalid exit code"⟩
      else .ok (some code)

def statusField (fields : List (Str × Json ν)) : Except BotError Unit :=
  match Entries.get fields (js "status") with
  | none => .ok ()
  | some value =>
    refuseIf (value.text ∉ ["waiting", "watching", "connected"].map js)
      ⟨.validation, js "Invalid source status"⟩

def maxSnapshotBytes : ℕ := 16 * 1024 * 1024

/-- The form of a snapshot that is stored. -/
def IsSnapshot (snapshot : List (Str × Str)) : Prop :=
  snapshot.length ≤ 100000 ∧
    utf8Length (Json.stringify (.obj (snapshot.map fun e => (e.1, .str e.2)) : Json ν)) ≤
      maxSnapshotBytes

instance {snapshot : List (Str × Str)} : Decidable (IsSnapshot (ν := ν) snapshot) :=
  inferInstanceAs (Decidable (_ ∧ _))

def textEntries (fields : List (Str × Json ν)) : Option (List (Str × Str)) :=
  fields.mapM fun e => e.2.str?.map fun s => (e.1, s)

def snapshotField (fields : List (Str × Json ν)) :
    Except BotError (Option (List (Str × Str))) :=
  match Entries.get fields (js "snapshot") with
  | none => .ok none
  | some value => do
    let entries ← object value
    match textEntries entries with
    | none => .error ⟨.resource, js "Invalid file snapshot"⟩
    | some snapshot =>
      if IsSnapshot (ν := ν) snapshot ∧
          (snapshot.all fun e => e.1.length ≤ 4096 && e.2.length ≤ 512) = true then
        .ok (some snapshot)
      else .error ⟨.resource, js "Invalid file snapshot"⟩

def changesField (fields : List (Str × Json ν)) : Except BotError (Option (List Str)) :=
  match Entries.get fields (js "changes") with
  | none => .ok none
  | some value =>
    match value.strings? with
    | none => .error ⟨.resource, js "Invalid file changes"⟩
    | some changes =>
      if 1000 < changes.length ∨ (changes.any fun s => 4096 < s.length) = true then
        .error ⟨.resource, js "Invalid file changes"⟩
      else .ok (some changes)

def maxTextBytes : ℕ := 1024 * 1024

def parseObservation (value : Json ν) : Except BotError (Observation ν) := do
  let fields ← object value
  refuseIf ((fields.any fun e => e.1 ∉ observationFields) = true)
    ⟨.validation, js "Unknown source result field"⟩
  let stdout ← textField fields "stdout" maxTextBytes
  let stderr ← textField fields "stderr" maxTextBytes
  let body ← textField fields "body" maxTextBytes
  let eventId ← textField fields "eventId" 4096
  let matched ← flagField fields "matched"
  let notModified ← flagField fields "notModified"
  let filtered ← flagField fields "filtered"
  let exitCode ← exitCodeField fields
  statusField fields
  let snapshot ← snapshotField fields
  let changes ← changesField fields
  .ok {
    stdout := stdout
    stderr := stderr
    exitCode := exitCode
    body := body
    matched := matched
    notModified := notModified
    data := Entries.get fields (js "data")
    eventId := eventId
    filtered := filtered
    snapshot := snapshot
    changes := changes
    omitted := Entries.get fields (js "omitted") }

/-- What the store accepts of a checkpoint's cursor and snapshot when it loads it. -/
structure Bounded (ν : Type) [Engine ν] (cp : SourceCheckpoint) : Prop where
  cursor : ∀ cursor ∈ cp.cursor, utf8Length cursor ≤ 4096
  snapshot : ∀ snapshot ∈ cp.snapshot, IsSnapshot (ν := ν) snapshot

structure Storable (ν : Type) [Engine ν] (cp : SourceCheckpoint) : Prop extends Bounded ν cp where
  ids : cp.ids.length ≤ 100000

instance {cp : SourceCheckpoint} : Decidable (Storable ν cp) :=
  decidable_of_iff ((∀ cursor ∈ cp.cursor, utf8Length cursor ≤ 4096) ∧
      (∀ snapshot ∈ cp.snapshot, IsSnapshot (ν := ν) snapshot) ∧ cp.ids.length ≤ 100000)
    ⟨fun h => ⟨⟨h.1, h.2.1⟩, h.2.2⟩, fun h => ⟨h.cursor, h.snapshot, h.ids⟩⟩

def slashes : Str → Str
  | [] => []
  | [u] => [u]
  | u :: v :: rest =>
    if u = unit '~' ∧ v = unit '1' then unit '/' :: slashes rest else u :: slashes (v :: rest)

def tildes : Str → Str
  | [] => []
  | [u] => [u]
  | u :: v :: rest =>
    if u = unit '~' ∧ v = unit '0' then unit '~' :: tildes rest else u :: tildes (v :: rest)

def pointerKeys (path : Str) : List Str :=
  ((path.drop 1).splitOn (unit '/')).map fun key => tildes (slashes key)

def ownProperty (value : Json ν) (key : Str) : Option (Json ν) :=
  match value with
  | .obj fields => Entries.get fields key
  | .arr items =>
    if key = js "length" then some (.num (Engine.literal (items.length : ℚ)))
    else if natText (digitsValue key) = key then items[digitsValue key]?
    else none
  | _ => none

def missingPointer (path : Str) : BotError := ⟨.validation, js "Missing JSON Pointer " ++ path⟩

def selectKeys (path : Str) (value : Json ν) : List Str → Except BotError (Json ν)
  | [] => .ok value
  | key :: keys =>
    match ownProperty value key with
    | none => .error (missingPointer path)
    | some result => selectKeys path result keys

def selectPointer (value : Json ν) (path : Str) : Except BotError (Json ν) := do
  pointer path
  if path = [] then .ok value else selectKeys path value (pointerKeys path)

def canonical (value : Json ν) : Str := serializeValidatedJson value

section Evaluating

structure Seen (ν : Type) where
  checkpoint : SourceCheckpoint
  events : List (SourceEvent ν)
  present : List Str

def nonempty (id : Option Str) : Option Str := id.filter fun s => s ≠ []

def movedCursor (next : SourceCheckpoint) (o : Observation ν) : Option Str :=
  if o.eventId.isSome = true then o.eventId else next.cursor

def evaluateSse (next : SourceCheckpoint) (o : Observation ν) : Seen ν :=
  let moved := { next with cursor := movedCursor next o }
  if o.filtered = some true then ⟨moved, [], []⟩
  else
    match nonempty o.eventId with
    | none => ⟨moved, [⟨orElse o.data (.str []), none⟩], []⟩
    | some id =>
      if id ∈ next.ids then ⟨moved, [], [id]⟩
      else ⟨{ moved with ids := next.ids ++ [id] }, [⟨orElse o.data (.str []), some id⟩], [id]⟩

def differences (before after : List (Str × Str)) : List Str :=
  (Entries.keys before ++ (Entries.keys after).filter fun p => p ∉ Entries.keys before).filter
    fun p => Entries.get after p ≠ Entries.get before p

def texts (items : List Str) : Json ν := .arr (items.map .str)

def changesEvent (o : Observation ν) (changes : List Str) : SourceEvent ν where
  payload := .obj [(js "changes", texts changes),
    (js "omitted", orElse o.omitted (.num (Engine.literal 0)))]
  identity := none

def netEvent (different : List Str) : SourceEvent ν where
  payload := .obj [(js "changes", texts (different.take 1000)),
    (js "omitted", .num (Engine.literal ((different.length - 1000 : ℕ) : ℚ))),
    (js "recovery", .str (js "net changes only"))]
  identity := none

def filesEvents (next : SourceCheckpoint) (o : Observation ν) : List (SourceEvent ν) :=
  if next.initialized = false then []
  else
    match o.changes.getD [], o.snapshot, next.snapshot with
    | change :: changes, _, _ => [changesEvent o (change :: changes)]
    | [], some after, some before =>
      if differences before after = [] then [] else [netEvent (differences before after)]
    | [], _, _ => []

def evaluateFiles (next : SourceCheckpoint) (o : Observation ν) : Seen ν :=
  ⟨{ next with snapshot := some (o.snapshot.getD (next.snapshot.getD [])) }, filesEvents next o,
    []⟩

structure Scan (ν : Type) where
  met : List Str
  ids : List Str
  events : List (SourceEvent ν)

def isIdentity : Json ν → Bool
  | .str s => s ≠ []
  | .num _ => true
  | _ => false

def scanItem (identity : Str) (speaks : Bool) (scan : Scan ν) (item : Json ν) :
    Except BotError (Scan ν) := do
  let v ← selectPointer item identity
  refuseIf (isIdentity v = false)
    ⟨.validation, js "Item identity must be a nonempty string or finite number"⟩
  refuseIf (4096 < utf8Length (canonical v) ∨ canonical v ∈ scan.met)
    ⟨.validation, js "Duplicate or oversized item identity"⟩
  if canonical v ∈ scan.ids then .ok { scan with met := scan.met ++ [canonical v] }
  else
    .ok {
      met := scan.met ++ [canonical v]
      ids := scan.ids ++ [canonical v]
      events := if speaks = true then scan.events ++ [⟨item, some (canonical v)⟩]
        else scan.events }

def scanItems (identity : Str) (speaks : Bool) : Scan ν → List (Json ν) → Except BotError (Scan ν)
  | scan, [] => .ok scan
  | scan, item :: items => do
    let next ← scanItem identity speaks scan item
    scanItems identity speaks next items

def evaluateItems (next : SourceCheckpoint) (parsed : Json ν) (items identity : Str)
    (initial : Option BotInitialObservation) : Except BotError (Seen ν) := do
  let selected ← selectPointer parsed items
  let list ← demand selected.items? ⟨.validation, js "Items pointer must select an array"⟩
  let speaks := next.initialized || initial ≠ some .baseline
  let scan ← scanItems identity speaks ⟨[], next.ids, []⟩ list
  .ok ⟨{ next with ids := scan.ids }, scan.events, scan.met⟩

def evaluateMatching (next : SourceCheckpoint) (o : Observation ν) (raw : Str)
    (matching repeated : Bool) : Seen ν :=
  let payload := .obj [(js "stdout", .str raw),
    (js "exitCode", .num (Engine.literal ((o.exitCode.getD 0 : ℤ) : ℚ)))]
  ⟨{ next with matching := matching },
    if matching = true ∧ (repeated = true ∨ next.matching = false) then [⟨payload, none⟩] else [],
    []⟩

variable (parse : Str → Option (Json ν)) (sha256 : Str → Digest)

def parsed (s : Str) : Except SourceError (Json ν) := demand (parse s) .unparseable

def lift {α : Type} (x : Except BotError α) : Except SourceError α := x.mapError .bot

def reread (value : Json ν) : Except SourceError (Json ν) :=
  match value with
  | .str s => parsed parse s
  | _ => .ok value

def plainText (value : Json ν) : Str :=
  match value with
  | .str s => s
  | _ => canonical value

def evaluateMatch (next : SourceCheckpoint) (o : Observation ν) (matching : BotSourceMatch)
    (raw : Str) (value : Json ν) (canonicalized : Bool) : Except SourceError (Seen ν) :=
  match matching with
  | .items items identity initial => do
    let value ← reread parse value
    lift (evaluateItems next value items identity initial)
  | .changed =>
    let current := sha256 (if canonicalized = true then canonical value else raw)
    .ok ⟨{ next with baseline := some current },
      if next.initialized = true ∧ next.baseline ≠ some current then [⟨value, none⟩] else [],
      []⟩
  | .exit code repeated =>
    .ok (evaluateMatching next o raw (o.exitCode = some code) repeated)
  | .contains text repeated =>
    .ok (evaluateMatching next o raw (text <:+: plainText value) repeated)
  | .regex _ repeated => .ok (evaluateMatching next o raw (o.matched = some true) repeated)

def isExit : BotSourceMatch → Bool
  | .exit _ _ => true
  | _ => false

def exitedError (o : Observation ν) : BotError where
  code := .unavailable
  message := js "Command exited " ++
    (match o.exitCode with
      | none => js "undefined"
      | some code => Engine.print (Engine.literal (code : ℚ) : ν)) ++
    js ": " ++ (o.stderr.getD []).take 512

def evaluateCommand (next : SourceCheckpoint) (o : Observation ν) (matching : BotSourceMatch) :
    Except SourceError (Seen ν) :=
  if o.exitCode ≠ some 0 ∧ isExit matching = false then
    .error (.bot (exitedError o))
  else if maxTextBytes < utf8Length (o.stdout.getD []) then
    .error (.bot ⟨.resource, js "Source output exceeds 1 MiB"⟩)
  else
    evaluateMatch parse sha256 next o matching (o.stdout.getD []) (.str (o.stdout.getD [])) false

def evaluateHttp (next : SourceCheckpoint) (o : Observation ν) (select : Option Str)
    (matching : BotSourceMatch) : Except SourceError (Seen ν) :=
  if maxTextBytes < utf8Length (o.body.getD []) then
    .error (.bot ⟨.resource, js "Source output exceeds 1 MiB"⟩)
  else
    match nonempty select with
    | none =>
      evaluateMatch parse sha256 next o matching (o.body.getD []) (.str (o.body.getD [])) false
    | some path => do
      let body ← parsed parse (o.body.getD [])
      let value ← lift (selectPointer body path)
      evaluateMatch parse sha256 next o matching (o.body.getD []) value true

def evaluateSource (source : BotObservationSource) (next : SourceCheckpoint) (o : Observation ν) :
    Except SourceError (Seen ν) :=
  match source with
  | .sse => .ok (evaluateSse next o)
  | .files => .ok (evaluateFiles next o)
  | .command matching => evaluateCommand parse sha256 next o (matching.getD .changed)
  | .http select matching => evaluateHttp parse sha256 next o select (matching.getD .changed)

def conclude (seen : Seen ν) : Except BotError (Seen ν) := do
  let events := if seen.checkpoint.resumeBaseline = true then [] else seen.events
  refuseIf (100000 < seen.checkpoint.ids.length)
    ⟨.resource, js "Remembered identity limit reached; reset memory explicitly"⟩
  refuseIf ((events.any fun event => 32768 < utf8Length event.payload.stringify) = true)
    ⟨.resource, js "Selected event exceeds 32 KiB"⟩
  .ok {
    seen with
    checkpoint := { seen.checkpoint with initialized := true, resumeBaseline := false }
    events := events }

def evaluateObservation (source : BotObservationSource) (previous : SourceCheckpoint)
    (observation : Json ν) : Except SourceError (Seen ν) := do
  let o ← lift (parseObservation observation)
  if o.notModified = some true then .ok ⟨previous, [], []⟩
  else
    let seen ← evaluateSource parse sha256 source previous o
    lift (conclude seen)

/-- The first observation of such a source processes none of its items. -/
def startsSilent : BotObservationSource → Bool
  | .command (some (.items _ _ (some .baseline))) => true
  | .http _ (some (.items _ _ (some .baseline))) => true
  | _ => false

/-- The next observation is a baseline, of a source that starts silent or of a resumed trigger. -/
def isBaseline (source : BotObservationSource) (previous : SourceCheckpoint) : Bool :=
  previous.resumeBaseline || (!previous.initialized && startsSilent source)

end Evaluating

end Terminay.Bots
