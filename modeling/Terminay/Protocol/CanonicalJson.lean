import Terminay.Lib.Sorting
import Terminay.Script.Literals
import Terminay.Workspace.Bounds

/-!
# Canonical JSON

The encoder writes a validated value with the keys of every object in order. The
decoder is a recursive descent over the text that builds plain objects, writes
the value it built again and refuses the bytes unless that is the same text.
Each level of nesting costs the parser one of its levels; a loop over items or
members runs at most once for each code unit left.
-/

namespace Terminay.Protocol
open Script Workspace Outcome

variable {ν : Type} [Engine ν]

def nestingLimit : Str := js "JSON nesting limit"

mutual
def assertJsonValue : Json ν → ℕ → Checked Unit
  | .arr items, depth => do
    refuseIf (32 < depth) nestingLimit
    assertItems items (depth + 1)
  | .obj fields, depth => do
    refuseIf (32 < depth) nestingLimit
    assertFields fields (depth + 1)
  | .null, depth => refuseIf (32 < depth) nestingLimit
  | .bool _, depth => refuseIf (32 < depth) nestingLimit
  | .num _, depth => refuseIf (32 < depth) nestingLimit
  | .str _, depth => refuseIf (32 < depth) nestingLimit
def assertItems : List (Json ν) → ℕ → Checked Unit
  | [], _ => .ok ()
  | a :: as, depth => do
    assertJsonValue a depth
    assertItems as depth
def assertFields : List (Str × Json ν) → ℕ → Checked Unit
  | [], _ => .ok ()
  | (_, a) :: es, depth => do
    assertJsonValue a depth
    assertFields es depth
end

def joinCommas : List Str → Str
  | [] => []
  | [part] => part
  | part :: next :: parts => part ++ unit ',' :: joinCommas (next :: parts)

def member (e : Str × Str) : Str := quote e.1 ++ unit ':' :: e.2

mutual
def serializeValidatedJson : Json ν → Str
  | .null => js "null"
  | .bool b => if b then js "true" else js "false"
  | .num n => Engine.print n
  | .str s => quote s
  | .arr items => unit '[' :: joinCommas (serializeItems items) ++ [unit ']']
  | .obj fields =>
    unit '\x7b' :: joinCommas ((Lists.sortByKey (serializeFields fields)).map member) ++ [unit '\x7d']
def serializeItems : List (Json ν) → List Str
  | [] => []
  | a :: as => serializeValidatedJson a :: serializeItems as
def serializeFields : List (Str × Json ν) → List (Str × Str)
  | [] => []
  | (k, a) :: es => (k, serializeValidatedJson a) :: serializeFields es
end

def canonicalize (value : Json ν) : Checked Str := do
  assertJsonValue value 0
  .ok (serializeValidatedJson value)

def encodeCanonicalJson (value : Json ν) : Checked Bytes := do
  let text ← canonicalize value
  .ok (textEncode text)

/-- The answer of a parsing function: the value and the text after it. -/
abbrev Parsed (ν : Type) := Json ν × Str

def ws (s : Str) : Str := s.dropWhile isWhiteSpace

/-- An assignment `result[key] = value` on a plain object makes `key` a field of
its own, unless it sets the object's prototype. -/
def ownField (key : Str) : Bool := key != js "__proto__"

def assign (result : List (Str × Json ν)) (key : Str) (value : Json ν) : List (Str × Json ν) :=
  if ownField key then result ++ [(key, value)] else result

def parseString (s : Str) : Checked (Str × Str) := do
  let raw ← closingQuote false s
  let value ← demand (unescape raw.1) (js "invalid string")
  .ok (value, raw.2)

def parseNumber (s : Str) : Checked (Parsed ν) := do
  let literal ← demand (numeral s) (js "invalid number")
  match Engine.read literal.1 with
  | .finite n => .ok (.num n, literal.2)
  | _ => .error (js "non-finite number")

def expect (u : UInt16) (message : Str) (s : Str) : Checked Str :=
  match s with
  | [] => .error message
  | v :: rest => if v = u then .ok rest else .error message

def outOfFuel : Str := js "out of fuel"

def parseItems (parse : Str → Checked (Parsed ν)) : ℕ → List (Json ν) → Str → Checked (Parsed ν)
  | 0, _, _ => .error outOfFuel
  | fuel + 1, result, s => do
    let item ← parse (ws s)
    match ws item.2 with
    | [] => .error (js "missing comma")
    | u :: rest =>
      if u = unit ']' then .ok (.arr (result ++ [item.1]), rest)
      else if u = unit ',' then parseItems parse fuel (result ++ [item.1]) rest
      else .error (js "missing comma")

def parseArray (parse : Str → Checked (Parsed ν)) (s : Str) : Checked (Parsed ν) :=
  match ws s with
  | [] => parseItems parse 1 [] []
  | u :: rest =>
    if u = unit ']' then .ok (.arr [], rest) else parseItems parse (rest.length + 1) [] (u :: rest)

def parseMembers (parse : Str → Checked (Parsed ν)) :
    ℕ → List Str → List (Str × Json ν) → Str → Checked (Parsed ν)
  | 0, _, _, _ => .error outOfFuel
  | fuel + 1, seen, result, s => do
    let s ← expect (unit '"') (js "object key must be a string") s
    let key ← parseString s
    refuseIf (key.1 ∈ seen) (js "duplicate key " ++ key.1)
    let s ← expect (unit ':') (js "missing colon") (ws key.2)
    let value ← parse (ws s)
    match ws value.2 with
    | [] => .error (js "missing comma")
    | u :: rest =>
      if u = unit '\x7d' then .ok (.obj (assign result key.1 value.1), rest)
      else if u = unit ',' then
        parseMembers parse fuel (key.1 :: seen) (assign result key.1 value.1) (ws rest)
      else .error (js "missing comma")

def parseObject (parse : Str → Checked (Parsed ν)) (s : Str) : Checked (Parsed ν) :=
  match ws s with
  | [] => parseMembers parse 1 [] [] []
  | u :: rest =>
    if u = unit '\x7d' then .ok (.obj [], rest)
    else parseMembers parse (rest.length + 1) [] [] (u :: rest)

def takeWord (s : Str) : Option (Parsed ν) :=
  if (js "true").isPrefixOf s then some (.bool true, s.drop 4)
  else if (js "false").isPrefixOf s then some (.bool false, s.drop 5)
  else if (js "null").isPrefixOf s then some (.null, s.drop 4)
  else none

def parseScalar (total : ℕ) (u : UInt16) (rest : Str) : Checked (Parsed ν) :=
  match takeWord (u :: rest) with
  | some parsed => .ok parsed
  | none =>
    if u = unit '-' ∨ isDigit u then parseNumber (u :: rest)
    else .error (js "invalid JSON at " ++ natText (total - (u :: rest).length))

def parseValue (total : ℕ) : ℕ → Str → Checked (Parsed ν)
  | 0, _ => .error nestingLimit
  | _ + 1, [] => .error (js "invalid JSON at " ++ natText total)
  | levels + 1, u :: rest =>
    if u = unit '\x7b' then parseObject (parseValue total levels) rest
    else if u = unit '[' then parseArray (parseValue total levels) rest
    else if u = unit '"' then (parseString rest).map fun p => (.str p.1, p.2)
    else parseScalar total u rest

def parse (text : Str) : Checked (Json ν) := do
  let result ← parseValue text.length 33 text
  refuseIf (result.2 ≠ []) (js "trailing JSON data")
  .ok result.1

def decodeCanonicalJson (bytes : Bytes) : Checked (Json ν) := do
  let text ← demand (textDecode bytes) (js "invalid UTF-8")
  let value ← parse text
  let canonical ← canonicalize value
  refuseIf (canonical ≠ text) (js "JSON is not canonical")
  .ok value

mutual
def distinctKeys : Json ν → Bool
  | .arr items => distinctItems items
  | .obj fields => decide (fields.map (·.1)).Nodup && distinctFields fields
  | _ => true
def distinctItems : List (Json ν) → Bool
  | [] => true
  | a :: as => distinctKeys a && distinctItems as
def distinctFields : List (Str × Json ν) → Bool
  | [] => true
  | (_, a) :: es => distinctKeys a && distinctFields es
end

mutual
def ownsProto : Json ν → Bool
  | .arr items => itemsOwnProto items
  | .obj fields => fieldsOwnProto fields
  | _ => false
def itemsOwnProto : List (Json ν) → Bool
  | [] => false
  | a :: as => ownsProto a || itemsOwnProto as
def fieldsOwnProto : List (Str × Json ν) → Bool
  | [] => false
  | (k, a) :: es => !ownField k || ownsProto a || fieldsOwnProto es
end

mutual
/-- Structural equality: the same items in order, the same fields in any order. -/
def alike : Json ν → Json ν → Bool
  | .null, .null => true
  | .bool a, .bool b => a == b
  | .num a, .num b => decide (a = b)
  | .str a, .str b => a == b
  | .arr as, .arr bs => alikeItems as bs
  | .obj as, .obj bs => as.length == bs.length && alikeFields as (Table.ofEntries bs)
  | _, _ => false
def alikeItems : List (Json ν) → List (Json ν) → Bool
  | [], [] => true
  | a :: as, b :: bs => alike a b && alikeItems as bs
  | _, _ => false
def alikeFields : List (Str × Json ν) → Fields ν → Bool
  | [], _ => true
  | (k, a) :: es, fields => (fields[k]?.any fun b => alike a b) && alikeFields es fields
end

/-- A value of the language: every object lists each of its keys once. -/
structure JsonValue (ν : Type) [Engine ν] where
  json : Json ν
  distinct : distinctKeys json = true

end Terminay.Protocol
