import Terminay.Activity.Session
import Terminay.Script.TextDecoder

/-!
# The terminal signal parser

The parser reads what a terminal writes for the few OSC and BEL signals it knows. A sequence may
be spread over chunks; its payload is kept up to a bound, beyond which the sequence is discarded.
Each push decodes its chunk with a decoder of its own.
-/

namespace Terminay.Activity
open Script Workspace

variable {ν : Type} [Engine ν]

/-- `COMMAND_PHASES[key]`, which also finds what every object inherits. -/
inductive FoundPhase where
  | phase (phase : CommandPhase)
  | inherited (key : Str)
  deriving DecidableEq

/-- A signal with its texts and values, of which the reducer reads less. -/
inductive ParsedSignal (ν : Type) where
  | progress (state : Fin 5) (progress : Option ν)
  | command (phase : FoundPhase) (exitCode : Option ℤ)
  | notification (title body : Option Str)
  | bell
  | title (title : Str)
  deriving DecidableEq

def commandPhase (key : Str) : Option FoundPhase :=
  if key = js "A" then some (.phase .prompt)
  else if key = js "B" then some (.phase .input)
  else if key = js "C" then some (.phase .executing)
  else if key = js "D" then some (.phase .finished)
  else if inheritedNames.contains key then some (.inherited key)
  else none

def fields (body : Str) : List Str := body.splitOn (unit ';')

/-- `/^\d+$/` -/
def allDigits (text : Str) : Bool := !text.isEmpty && text.all isDigit

def signedDigits (text : Str) : Option ℤ :=
  match text with
  | [] => none
  | u :: digits =>
    if u = unit '-' then
      if allDigits digits then some (-(digitsValue digits : ℤ)) else none
    else if allDigits (u :: digits) then some (digitsValue (u :: digits)) else none

def progressOf (state : Fin 5) (text : Str) : Option (ParsedSignal ν) :=
  match Engine.read (ν := ν) text with
  | .finite n =>
    if Engine.value n < 0 ∨ 100 < Engine.value n then none
    else some (.progress state (some n))
  | .infinite _ => none
  | .nan => none

def decodeOsc9 (body : Str) : Option (ParsedSignal ν) :=
  let parts := fields body
  if parts[0]? ≠ some (js "4") then some (.notification none (some body))
  else
    match parts[1]? with
    | none => none
    | some digits =>
      if allDigits digits = false then none
      else if h : digitsValue digits < 5 then
        match parts[2]? with
        | none | some [] => some (.progress ⟨digitsValue digits, h⟩ none)
        | some text =>
          if 3 < parts.length then none else progressOf ⟨digitsValue digits, h⟩ text
      else none

def decodeCommand (body : Str) : Option (ParsedSignal ν) :=
  let parts := fields body
  match commandPhase (parts[0]?.getD []) with
  | none => none
  | some phase =>
    if phase ≠ .phase .finished then some (.command phase none)
    else
      match parts[1]? with
      | none => some (.command phase none)
      | some text => some (.command phase ((signedDigits text).filter fun n => n.natAbs ≤ maxSafeInteger))

def nonEmpty (text : Option Str) : Option Str := text.filter fun t => !t.isEmpty

def decodeOsc777 (body : Str) : Option (ParsedSignal ν) :=
  let parts := fields body
  if parts[0]? ≠ some (js "notify") then none
  else
    some (.notification (nonEmpty parts[1]?)
      ((nonEmpty parts[2]?).map fun _ => (js ";").intercalate (parts.drop 2)))

def decodeOsc (payload : Str) : Option (ParsedSignal ν) :=
  let separator := payload.idxOf (unit ';')
  let identifier := payload.take separator
  let body := payload.drop (separator + 1)
  if identifier = js "0" ∨ identifier = js "2" then some (.title body)
  else if identifier = js "9" then decodeOsc9 body
  else if identifier = js "133" ∨ identifier = js "633" then decodeCommand body
  else if identifier = js "777" then decodeOsc777 body
  else none

/-- The size of the payload stays what it was when the payload is discarded. -/
structure IncrementalTerminalSignalParser where
  maxPayloadBytes : ℕ
  maxPayloadBytes_pos : 0 < maxPayloadBytes
  inOsc : Bool
  textEsc : Bool
  oscEsc : Bool
  discarded : Bool
  payload : Str
  payloadBytes : ℕ

def defaultMaxPayloadBytes : ℕ := 16 * 1024

namespace IncrementalTerminalSignalParser

def create (maxPayloadBytes : Option ℤ) : Checked IncrementalTerminalSignalParser :=
  let max := maxPayloadBytes.getD defaultMaxPayloadBytes
  if h : 0 < max ∧ max ≤ maxSafeInteger then
    .ok
      { maxPayloadBytes := max.toNat
        maxPayloadBytes_pos := by omega
        inOsc := false
        textEsc := false
        oscEsc := false
        discarded := false
        payload := []
        payloadBytes := 0 }
  else .error (js "maxPayloadBytes must be a positive safe integer")

def startOsc (p : IncrementalTerminalSignalParser) : IncrementalTerminalSignalParser :=
  { p with inOsc := true, oscEsc := false, discarded := false, payload := [], payloadBytes := 0 }

def appendPayload (p : IncrementalTerminalSignalParser) (character : Char) :
    IncrementalTerminalSignalParser :=
  if p.discarded = true then p
  else
    let payloadBytes := p.payloadBytes + character.utf8Size
    if p.maxPayloadBytes < payloadBytes then
      { p with payloadBytes := payloadBytes, discarded := true, payload := [] }
    else { p with payloadBytes := payloadBytes, payload := p.payload ++ utf16 character }

def finishOsc (p : IncrementalTerminalSignalParser) :
    IncrementalTerminalSignalParser × List (ParsedSignal ν) :=
  ({ p with inOsc := false, oscEsc := false, discarded := false, payload := [], payloadBytes := 0 },
    if p.discarded = true then [] else (decodeOsc p.payload).toList)

def plainText (p : IncrementalTerminalSignalParser) (character : Char) :
    IncrementalTerminalSignalParser × List (ParsedSignal ν) :=
  if character = '\x1b' then ({ p with textEsc := true }, [])
  else if character = '\u009d' then (p.startOsc, [])
  else if character = '\x07' then (p, [.bell])
  else (p, [])

def consumeText (p : IncrementalTerminalSignalParser) (character : Char) :
    IncrementalTerminalSignalParser × List (ParsedSignal ν) :=
  if p.textEsc = true then
    let q := { p with textEsc := false }
    if character = ']' then (q.startOsc, []) else q.plainText character
  else p.plainText character

def plainOsc (p : IncrementalTerminalSignalParser) (character : Char) :
    IncrementalTerminalSignalParser × List (ParsedSignal ν) :=
  if character = '\x1b' then ({ p with oscEsc := true }, [])
  else if character = '\x07' then p.finishOsc
  else (p.appendPayload character, [])

def consumeOsc (p : IncrementalTerminalSignalParser) (character : Char) :
    IncrementalTerminalSignalParser × List (ParsedSignal ν) :=
  if p.oscEsc = true then
    let q := { p with oscEsc := false }
    if character = '\\' then q.finishOsc else (q.appendPayload '\x1b').plainOsc character
  else p.plainOsc character

def consume (p : IncrementalTerminalSignalParser) (character : Char) :
    IncrementalTerminalSignalParser × List (ParsedSignal ν) :=
  if p.inOsc = false then p.consumeText character else p.consumeOsc character

def consumeAll (p : IncrementalTerminalSignalParser) :
    List Char → IncrementalTerminalSignalParser × List (ParsedSignal ν)
  | [] => (p, [])
  | character :: rest =>
    let first := p.consume character
    let after := first.1.consumeAll rest
    (after.1, first.2 ++ after.2)

def push (p : IncrementalTerminalSignalParser) (chunk : Bytes) :
    IncrementalTerminalSignalParser × List (ParsedSignal ν) :=
  p.consumeAll (replacingDecode chunk)

end IncrementalTerminalSignalParser

end Terminay.Activity
