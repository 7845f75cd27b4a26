import Terminay.Terminal.InputSources
import Terminay.Lib.Runs
import Terminay.Script.Unicode

/-!
# Presentation checkpoints

An emulator follows the output of a terminal behind a queue. At a byte boundary
where no sequence is pending its state is serialized, and the events admitted since
then are its tail. A display is restored from the two of them.
-/

namespace Terminay.Terminal
open Script

/-! ## Safe boundaries -/

inductive ScannerState where
  | ground | escape | csi | string | stringEscape
  deriving DecidableEq

structure SafeBoundaryScanner where
  state : ScannerState
  utf8Remaining : ℕ
  hyperlinkOpen : Bool
  osc : Bool
  oscCode : Bytes
  oscSemicolons : ℕ
  oscHasUri : Bool

namespace SafeBoundaryScanner

def initial : SafeBoundaryScanner := ⟨.ground, 0, false, false, [], 0, false⟩

def safe (s : SafeBoundaryScanner) : Bool :=
  s.state = .ground ∧ s.utf8Remaining = 0 ∧ s.hyperlinkOpen = false

def startString (s : SafeBoundaryScanner) (osc : Bool) : SafeBoundaryScanner :=
  { s with state := .string, osc := osc, oscCode := [], oscSemicolons := 0, oscHasUri := false }

def consumeStringByte (s : SafeBoundaryScanner) (byte : UInt8) : SafeBoundaryScanner :=
  if s.osc = false then s
  else if s.oscSemicolons = 0 then
    if byte = 0x3b then { s with oscSemicolons := 1 }
    else if s.oscCode.length < 8 ∧ 0x30 ≤ byte ∧ byte ≤ 0x39 then
      { s with oscCode := s.oscCode ++ [byte] }
    else s
  else if s.oscSemicolons = 1 then
    if byte = 0x3b then { s with oscSemicolons := 2 } else s
  else if byte ≠ 0x3b ∨ s.oscHasUri = true then { s with oscHasUri := true }
  else s

def finishString (s : SafeBoundaryScanner) : SafeBoundaryScanner :=
  { s with
    hyperlinkOpen :=
      if s.osc = true ∧ s.oscCode = [0x38] ∧ 2 ≤ s.oscSemicolons then s.oscHasUri
      else s.hyperlinkOpen
    state := .ground
    osc := false }

def consumeGround (s : SafeBoundaryScanner) (byte : UInt8) : SafeBoundaryScanner :=
  if byte = 0x1b then { s with state := .escape }
  else if byte = 0x9b then { s with state := .csi }
  else if byte = 0x9d then s.startString true
  else if byte = 0x90 ∨ byte = 0x98 ∨ byte = 0x9e ∨ byte = 0x9f then s.startString false
  else if 0xc2 ≤ byte ∧ byte ≤ 0xdf then { s with utf8Remaining := 1 }
  else if 0xe0 ≤ byte ∧ byte ≤ 0xef then { s with utf8Remaining := 2 }
  else if 0xf0 ≤ byte ∧ byte ≤ 0xf4 then { s with utf8Remaining := 3 }
  else s

def consume (s : SafeBoundaryScanner) (byte : UInt8) : SafeBoundaryScanner :=
  match s.state with
  | .string =>
    if byte = 0x07 ∨ byte = 0x9c then s.finishString
    else if byte = 0x1b then { s with state := .stringEscape }
    else s.consumeStringByte byte
  | .stringEscape =>
    if byte = 0x5c then s.finishString
    else { s with state := .string }.consumeStringByte byte
  | .csi =>
    if byte = 0x18 ∨ byte = 0x1a then { s with state := .ground }
    else if byte = 0x1b then { s with state := .escape }
    else if 0x40 ≤ byte ∧ byte ≤ 0x7e then { s with state := .ground }
    else s
  | .escape =>
    if byte = 0x5b then { s with state := .csi }
    else if byte = 0x5d then s.startString true
    else if byte = 0x50 ∨ byte = 0x58 ∨ byte = 0x5e ∨ byte = 0x5f then s.startString false
    else if byte = 0x1b then s
    else if 0x30 ≤ byte ∧ byte ≤ 0x7e then { s with state := .ground }
    else s
  | .ground =>
    if 0 < s.utf8Remaining then
      if 0x80 ≤ byte ∧ byte ≤ 0xbf then { s with utf8Remaining := s.utf8Remaining - 1 }
      else { s with utf8Remaining := 0 }.consumeGround byte
    else s.consumeGround byte

def ingest (s : SafeBoundaryScanner) (bytes : Bytes) : SafeBoundaryScanner := bytes.foldl consume s

end SafeBoundaryScanner

/-! ## The emulator -/

/-- The headless terminal with its decoder, and the serializer. `restore` makes a terminal of the
given size and writes a serialized state to it. -/
structure Emulator (ε : Type) where
  blank : TerminalDimensions → ε
  write : ε → Bytes → ε
  resize : ε → TerminalDimensions → ε
  grid : ε → TerminalDimensions
  serialize : ε → Bytes
  restore : TerminalDimensions → Bytes → ε

inductive TailEvent where
  | output (position nextPosition : ℕ) (bytes : Bytes)
  | resize (position : ℕ) (dimensions : TerminalDimensions)
  deriving DecidableEq

def TailEvent.byteLength : TailEvent → ℕ
  | .output _ _ bytes => bytes.length
  | .resize _ _ => 0

structure TailRecord where
  sequence : ℕ
  event : TailEvent

structure CheckpointLimits where
  maxCols : ℕ
  maxRows : ℕ
  maxOutputChunkBytes : ℕ
  maxQueuedBytes : ℕ
  maxSnapshotBytes : ℕ
  maxTailBytes : ℕ
  maxTailEvents : ℕ
  checkpointIntervalBytes : ℕ
  checkpointIntervalMs : ℕ
  maxPinsPerSession : ℕ
  maxPinnedBytesPerSession : ℕ
  maxPinLifetimeMs : ℕ

structure CheckpointPin where
  checkpointId : ℕ
  position : ℕ
  headPosition : ℕ
  checkpointDimensions : TerminalDimensions
  dimensions : TerminalDimensions
  tailByteLength : ℕ
  byteLength : ℕ
  expiresAt : ℤ
  state : Bytes
  tail : List TailEvent
  sequence : ℕ
  through : ℕ

/-- `restoring` is the state that a recovered session writes first. `base`, `admitted`, `finished`,
`sequence` and `dropped` keep what the session began with, every event admitted, the number of
events that the queue has taken, that of the events in the checkpoint, and the events that the tail
left out; `waiting` has a call of `prepare` by the events admitted before it. -/
structure CheckpointSession (ε : Type) where
  emulator : ε
  safeScanner : SafeBoundaryScanner
  dimensions : TerminalDimensions
  outputPosition : ℕ
  processedPosition : ℕ
  checkpointPosition : ℕ
  checkpointDimensions : TerminalDimensions
  checkpointState : Bytes
  tail : List TailRecord
  tailBytes : ℕ
  nextTailSequence : ℕ
  processedTailSequence : ℕ
  unretainedThroughSequence : ℕ
  queuedBytes : ℕ
  pinnedBytes : ℕ
  pins : List CheckpointPin
  prepared : List CheckpointPin
  unavailable : Bool
  tailOverflowed : Bool
  lastCheckpointAt : ℤ
  restoring : Option Bytes
  queue : List TailRecord
  waiting : List ℕ
  base : ε
  admitted : List TailEvent
  finished : ℕ
  sequence : ℕ
  dropped : List ℕ

variable {ε : Type}

namespace CheckpointSession

def create (E : Emulator ε) (limits : CheckpointLimits) (dimensions : TerminalDimensions)
    (startPosition : ℕ) (now : ℤ) (recovered : Option Bytes) : Option (CheckpointSession ε) :=
  if limits.maxSnapshotBytes < (E.serialize (E.blank dimensions)).length then none
  else
    some
      { emulator := E.blank dimensions
        safeScanner := .initial
        dimensions := dimensions
        outputPosition := startPosition
        processedPosition := startPosition
        checkpointPosition := startPosition
        checkpointDimensions := dimensions
        checkpointState := E.serialize (E.blank dimensions)
        tail := []
        tailBytes := 0
        nextTailSequence := 0
        processedTailSequence := 0
        unretainedThroughSequence := 0
        queuedBytes := 0
        pinnedBytes := 0
        pins := []
        prepared := []
        unavailable := false
        tailOverflowed := false
        lastCheckpointAt := now
        restoring := recovered
        queue := []
        waiting := []
        base := match recovered with
          | some state => E.restore dimensions state
          | none => E.blank dimensions
        admitted := []
        finished := 0
        sequence := 0
        dropped := [] }

def fail (s : CheckpointSession ε) : CheckpointSession ε := { s with unavailable := true }

def appendTail (s : CheckpointSession ε) (limits : CheckpointLimits) (event : TailEvent) :
    CheckpointSession ε :=
  let sequence := s.nextTailSequence + 1
  let entered : CheckpointSession ε :=
    { s with
      nextTailSequence := sequence
      queue := s.queue ++ [⟨sequence, event⟩]
      admitted := s.admitted ++ [event] }
  if s.tailOverflowed = false ∧ s.tail.length < limits.maxTailEvents ∧
      s.tailBytes + event.byteLength ≤ limits.maxTailBytes then
    { entered with
      tail := s.tail ++ [⟨sequence, event⟩]
      tailBytes := s.tailBytes + event.byteLength }
  else
    { entered with
      tailOverflowed := true
      unretainedThroughSequence := sequence
      dropped := s.dropped ++ [sequence] }

def ingestOutput (s : CheckpointSession ε) (limits : CheckpointLimits) (position : ℕ)
    (bytes : Bytes) : CheckpointSession ε :=
  if maxSafeInteger < position ∨ bytes = [] then s
  else if limits.maxOutputChunkBytes < bytes.length then s.fail
  else if s.unavailable = true then s
  else if position ≠ s.outputPosition then s.fail
  else if limits.maxQueuedBytes < s.queuedBytes + bytes.length then s.fail
  else if maxSafeInteger < position + bytes.length then s
  else
    let nextPosition := position + bytes.length
    let moved : CheckpointSession ε :=
      { s with
        outputPosition := nextPosition
        queuedBytes := s.queuedBytes + bytes.length }
    moved.appendTail limits (.output position nextPosition bytes)

def ingestResize (s : CheckpointSession ε) (limits : CheckpointLimits)
    (dimensions : TerminalDimensions) : CheckpointSession ε :=
  if dimensions.cols = 0 ∨ dimensions.rows = 0 ∨ limits.maxCols < dimensions.cols ∨
      limits.maxRows < dimensions.rows then s
  else if s.unavailable = true then s
  else s.appendTail limits (.resize s.outputPosition dimensions)

def shouldCheckpoint (s : CheckpointSession ε) (limits : CheckpointLimits) (now : ℤ) : Bool :=
  s.tailOverflowed || decide (limits.checkpointIntervalBytes ≤ s.tailBytes) ||
    decide ((limits.checkpointIntervalMs : ℤ) ≤ now - s.lastCheckpointAt)

def snapshot (E : Emulator ε) (s : CheckpointSession ε) (limits : CheckpointLimits)
    (throughSequence : ℕ) (now : ℤ) : Option (CheckpointSession ε) :=
  let state := E.serialize s.emulator
  if s.safeScanner.safe = false then some s
  else if limits.maxSnapshotBytes < state.length then none
  else
    let tail := s.tail.filter fun record => throughSequence < record.sequence
    let tailBytes := (tail.map fun record => record.event.byteLength).sum
    let unretained :=
      if s.unretainedThroughSequence ≤ throughSequence then 0 else s.unretainedThroughSequence
    some
      { s with
        checkpointState := state
        checkpointPosition := s.processedPosition
        checkpointDimensions := s.dimensions
        tail := tail
        tailBytes := tailBytes
        unretainedThroughSequence := unretained
        tailOverflowed := decide (throughSequence < unretained) ||
          decide (limits.maxTailBytes < tailBytes) || decide (limits.maxTailEvents < tail.length)
        lastCheckpointAt := now
        sequence := throughSequence }

def parse (E : Emulator ε) (s : CheckpointSession ε) (record : TailRecord) (ok : Bool) :
    CheckpointSession ε :=
  match record.event with
  | .output _ nextPosition bytes =>
    let scanned : CheckpointSession ε :=
      { s with
        safeScanner := s.safeScanner.ingest bytes
        queuedBytes := s.queuedBytes - bytes.length }
    if ok = true then
      { scanned with
        emulator := E.write s.emulator bytes
        processedPosition := nextPosition
        processedTailSequence := record.sequence }
    else scanned.fail
  | .resize _ dimensions =>
    { s with
      emulator := E.resize s.emulator dimensions
      dimensions := dimensions
      processedTailSequence := record.sequence }

def checkpoint (E : Emulator ε) (s : CheckpointSession ε) (limits : CheckpointLimits)
    (sequence : ℕ) (now : ℤ) : CheckpointSession ε :=
  if s.unavailable = false ∧ s.safeScanner.safe = true ∧ s.shouldCheckpoint limits now = true then
    (snapshot E s limits sequence now).getD s.fail
  else s

def restored (E : Emulator ε) (s : CheckpointSession ε) (limits : CheckpointLimits)
    (state : Bytes) (ok : Bool) : CheckpointSession ε :=
  let written : CheckpointSession ε := { s with restoring := none }
  if s.unavailable = true then written
  else if limits.maxSnapshotBytes < state.length ∨ ok = false then written.fail
  else
    { written with
      emulator := E.restore s.checkpointDimensions state
      checkpointState := state }

def parsed (E : Emulator ε) (s : CheckpointSession ε) (limits : CheckpointLimits) (now : ℤ)
    (ok : Bool) : CheckpointSession ε :=
  match s.restoring, s.queue with
  | some state, _ => s.restored E limits state ok
  | none, [] => s
  | none, record :: rest =>
    let taken : CheckpointSession ε := { s with queue := rest, finished := s.finished + 1 }
    if s.unavailable = true then taken
    else (taken.parse E record ok).checkpoint E limits record.sequence now

def cleanupExpired (s : CheckpointSession ε) (now : ℤ) : CheckpointSession ε :=
  let kept := s.pins.filter fun pin => now < pin.expiresAt
  let expired := s.pins.filter fun pin => pin.expiresAt ≤ now
  { s with
    pins := kept
    pinnedBytes := s.pinnedBytes - (expired.map CheckpointPin.byteLength).sum }

def prepare (s : CheckpointSession ε) (limits : CheckpointLimits) (now : ℤ) : CheckpointSession ε :=
  let cleaned := s.cleanupExpired now
  if cleaned.unavailable = true ∨ limits.maxPinsPerSession ≤ cleaned.pins.length then cleaned
  else { cleaned with waiting := s.waiting ++ [s.nextTailSequence] }

def pin (s : CheckpointSession ε) (limits : CheckpointLimits) (now : ℤ) : CheckpointPin :=
  let tail := s.tail.map TailRecord.event
  let tailByteLength := (tail.map TailEvent.byteLength).sum
  { checkpointId := s.prepared.length
    position := s.checkpointPosition
    headPosition := s.outputPosition
    checkpointDimensions := s.checkpointDimensions
    dimensions := s.dimensions
    tailByteLength := tailByteLength
    byteLength := s.checkpointState.length + tailByteLength
    expiresAt := now + limits.maxPinLifetimeMs
    state := s.checkpointState
    tail := tail
    sequence := s.sequence
    through := s.nextTailSequence }

def resume (E : Emulator ε) (s : CheckpointSession ε) (limits : CheckpointLimits) (now : ℤ) :
    CheckpointSession ε :=
  if s.unavailable = true then s
  else
    match if s.safeScanner.safe = true then snapshot E s limits s.processedTailSequence now
      else some s with
    | none => s
    | some current =>
      let pin := current.pin limits now
      if current.tailOverflowed = true then current
      else if maxSafeInteger < pin.byteLength then current
      else if limits.maxPinnedBytesPerSession < current.pinnedBytes + pin.byteLength then current
      else if maxSafeInteger < pin.expiresAt then current
      else
        { current with
          pins := current.pins ++ [pin]
          prepared := current.prepared ++ [pin]
          pinnedBytes := current.pinnedBytes + pin.byteLength }

def release (s : CheckpointSession ε) (checkpointId : ℕ) : CheckpointSession ε :=
  match s.pins.find? fun pin => pin.checkpointId = checkpointId with
  | some pin =>
    { s with
      pins := s.pins.filter fun other => other.checkpointId ≠ checkpointId
      pinnedBytes := s.pinnedBytes - pin.byteLength }
  | none => s

end CheckpointSession

inductive CheckpointInput where
  | ingestOutput (position : ℕ) (bytes : Bytes)
  | ingestResize (dimensions : TerminalDimensions)
  | parsed (now : ℤ) (ok : Bool)
  | prepare (now : ℤ)
  | resume (n : ℕ) (now : ℤ)
  | release (checkpointId : ℕ)
  | invalidate

/-- A call of `prepare` goes on once the queue has taken what was admitted before it; no action of
the queue is under way then, since the call waits on the promise of the one before. -/
def CheckpointSession.step (E : Emulator ε) (limits : CheckpointLimits) (s : CheckpointSession ε) :
    CheckpointInput → CheckpointSession ε
  | .ingestOutput position bytes => s.ingestOutput limits position bytes
  | .ingestResize dimensions => s.ingestResize limits dimensions
  | .parsed now ok => s.parsed E limits now ok
  | .prepare now => s.prepare limits now
  | .resume n now =>
    match s.waiting[n]? with
    | some admitted =>
      if s.restoring = none ∧ admitted ≤ s.finished then
        { s with waiting := s.waiting.eraseIdx n }.resume E limits now
      else s
    | none => s
  | .release checkpointId => s.release checkpointId
  | .invalidate => s.fail

end Terminay.Terminal
