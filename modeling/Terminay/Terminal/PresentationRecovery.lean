import Mathlib.Data.Rat.Cast.Order
import Terminay.Holder.Frames

/-!
# The presentation recovery of a holder

A header in JSON, the state of an emulator and the bytes of the tail. The header lists the events of
the tail, the bytes of an output event being the next ones after the state. The encoder decodes what
it has written.
-/

namespace Terminay.Terminal.Presentation
open Script Protocol Holder Outcome

def maxPresentationRecoveryBytes : ℕ := 4 * 1024 * 1024
def maxState : ℕ := 2 * 1024 * 1024
def maxTail : ℕ := 1024 * 1024
def maxHeader : ℕ := 1024 * 1024 - 4
def maxEvents : ℕ := 4096

variable {ν : Type} [Engine ν]

structure TerminalDimensions (ν : Type) where
  cols : Numeric ν
  rows : Numeric ν

inductive TailEvent (ν : Type) where
  | output (position nextPosition : Numeric ν) (bytes : Bytes)
  | resize (position : Numeric ν) (dimensions : TerminalDimensions ν)

structure TerminalPresentationRecovery (ν : Type) where
  sessionId : Str
  position : Numeric ν
  headPosition : Numeric ν
  checkpointDimensions : TerminalDimensions ν
  dimensions : TerminalDimensions ν
  state : Bytes
  tail : List (TailEvent ν)

/-- What is thrown: the refusal of the decoder itself, of the text decoder or of `JSON.parse`. -/
inductive RecoveryError where | invalid | encoding | notJson
  deriving DecidableEq

def position (value : Option (Json (Numeric ν))) : Except RecoveryError ν :=
  match value.bind Json.number? with
  | some n => if (safeInteger? n).any (0 ≤ ·) then .ok n else .error .invalid
  | none => .error .invalid

def gridNumber (value : Option (Json (Numeric ν))) : Except RecoveryError (Numeric ν) :=
  match value.bind Json.number? with
  | some n =>
    if (Engine.value n).den = 1 ∧ 1 ≤ Engine.value n ∧ Engine.value n ≤ 1000 then .ok (.finite n)
    else .error .invalid
  | none => .error .invalid

def grid (value : Option (Json (Numeric ν))) : Except RecoveryError (TerminalDimensions ν) := do
  let cols ← gridNumber (value.bind (·.property "cols"))
  let rows ← gridNumber (value.bind (·.property "rows"))
  .ok ⟨cols, rows⟩

def count (n : ν) : ℕ := (Engine.value n).num.toNat

/-! ## The decoder -/

structure Reading (ν : Type) where
  current : ν
  offset : ℕ
  tailBytes : ℕ
  currentGrid : TerminalDimensions ν
  tail : List (TailEvent ν)

def readOutput (bytes : Bytes) (head : ν) (event : Json (Numeric ν)) (r : Reading ν) :
    Except RecoveryError (Reading ν) := do
  let length ← position (event.property "byteLength")
  let next ← position (event.property "nextPosition")
  refuseIf (count length = 0 ∨ 64 * 1024 < count length ∨
    Engine.value next ≠ Engine.value r.current + Engine.value length ∨
    Engine.value head < Engine.value next ∨ bytes.length < r.offset + count length) .invalid
  refuseIf (maxTail < r.tailBytes + count length) .invalid
  .ok { current := next
        offset := r.offset + count length
        tailBytes := r.tailBytes + count length
        currentGrid := r.currentGrid
        tail := r.tail ++ [.output (.finite r.current) (.finite next)
          ((bytes.drop r.offset).take (count length))] }

def readResize (event : Json (Numeric ν)) (r : Reading ν) : Except RecoveryError (Reading ν) := do
  let dimensions ← grid (event.property "dimensions")
  .ok { r with
    currentGrid := dimensions
    tail := r.tail ++ [.resize (.finite r.current) dimensions] }

def readEvent (bytes : Bytes) (head : ν) (r : Reading ν) (event : Json (Numeric ν)) :
    Except RecoveryError (Reading ν) := do
  let place ← position (event.property "position")
  refuseIf (Engine.value place ≠ Engine.value r.current) .invalid
  let type := (event.property "type").bind Json.str?
  if type = some (js "resize") then readResize event r
  else if type = some (js "output") then readOutput bytes head event r
  else .error .invalid

def sameGrid (a b : TerminalDimensions ν) : Bool :=
  match a, b with
  | ⟨.finite c, .finite r⟩, ⟨.finite c', .finite r'⟩ =>
    Engine.value c = Engine.value c' ∧ Engine.value r = Engine.value r'
  | _, _ => false

def readHeader (bytes : Bytes) : Except RecoveryError (ℕ × Json (Numeric ν)) := do
  refuseIf (bytes.length < 4 ∨ maxPresentationRecoveryBytes < bytes.length) .invalid
  let headerLength := uint32At bytes 0
  refuseIf (maxHeader < headerLength ∨ bytes.length < 4 + headerLength) .invalid
  let text ← demand (textDecode ((bytes.drop 4).take headerLength)) .encoding
  let header ← demand (Json.parse text) .notJson
  .ok (headerLength, header)

def listedEvents (header : Json (Numeric ν)) (sessionId : Str) :
    Except RecoveryError (List (Json (Numeric ν))) := do
  refuseIf ((header.property "sessionId").bind Json.str? ≠ some sessionId) .invalid
  refuseIf (((header.property "formatVersion").bind Json.number?).map Engine.value ≠ some 1) .invalid
  let events ← demand ((header.property "tail").bind Json.items?) .invalid
  refuseIf (maxEvents < events.length) .invalid
  .ok events

def decodePresentationRecovery (bytes : Bytes) (sessionId : Str) :
    Except RecoveryError (TerminalPresentationRecovery ν) := do
  let (headerLength, header) ← readHeader bytes
  let events ← listedEvents header sessionId
  let start ← position (header.property "position")
  let head ← position (header.property "headPosition")
  refuseIf (Engine.value head < Engine.value start) .invalid
  let checkpointDimensions ← grid (header.property "checkpointDimensions")
  let dimensions ← grid (header.property "dimensions")
  let stateLength ← position (header.property "stateByteLength")
  let offset := 4 + headerLength
  refuseIf (count stateLength = 0 ∨ maxState < count stateLength ∨
    bytes.length < offset + count stateLength) .invalid
  let r ← events.foldlM (readEvent bytes head)
    ⟨start, offset + count stateLength, 0, checkpointDimensions, []⟩
  refuseIf (Engine.value r.current ≠ Engine.value head ∨ r.offset ≠ bytes.length ∨
    sameGrid r.currentGrid dimensions = false) .invalid
  .ok { sessionId := sessionId
        position := .finite start
        headPosition := .finite head
        checkpointDimensions := checkpointDimensions
        dimensions := dimensions
        state := (bytes.drop offset).take (count stateLength)
        tail := r.tail }

/-! ## The encoder -/

def numberJson : Numeric ν → Json ν
  | .finite n => .num n
  | _ => .null

def dimensionsJson (d : TerminalDimensions ν) : Json ν :=
  .obj [(js "cols", numberJson d.cols), (js "rows", numberJson d.rows)]

def lengthJson (bytes : Bytes) : Json ν := .num (Engine.literal (bytes.length : ℕ))

def eventJson : TailEvent ν → Json ν
  | .resize place dimensions => .obj [(js "type", .str (js "resize")), (js "position", numberJson place),
      (js "dimensions", dimensionsJson dimensions)]
  | .output place next bytes => .obj [(js "type", .str (js "output")), (js "position", numberJson place),
      (js "nextPosition", numberJson next), (js "byteLength", lengthJson bytes)]

def TailEvent.carried : TailEvent ν → Bytes
  | .output _ _ bytes => bytes
  | .resize _ _ => []

def headerJson (v : TerminalPresentationRecovery ν) : Json ν :=
  .obj [(js "sessionId", .str v.sessionId), (js "formatVersion", .num (Engine.literal 1)),
    (js "position", numberJson v.position), (js "headPosition", numberJson v.headPosition),
    (js "checkpointDimensions", dimensionsJson v.checkpointDimensions),
    (js "dimensions", dimensionsJson v.dimensions), (js "stateByteLength", lengthJson v.state),
    (js "tail", .arr (v.tail.map eventJson))]

def encodePresentationRecovery (v : TerminalPresentationRecovery ν) : Except RecoveryError Bytes := do
  let header := textEncode (headerJson v).stringify
  let tailBytes := v.tail.flatMap TailEvent.carried
  refuseIf (maxHeader < header.length ∨ maxState < v.state.length ∨ maxTail < tailBytes.length ∨
    maxEvents < v.tail.length) .invalid
  let bytes := uint32 header.length ++ header ++ v.state ++ tailBytes
  refuseIf (maxPresentationRecoveryBytes < bytes.length) .invalid
  -- validates local producers as strictly as a received transfer
  let _ ← (decodePresentationRecovery bytes v.sessionId :
    Except RecoveryError (TerminalPresentationRecovery ν))
  .ok bytes

end Terminay.Terminal.Presentation
