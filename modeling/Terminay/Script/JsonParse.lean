import Terminay.Script.Literals

/-!
# `JSON.parse`

The grammar of JSON text. A key that comes again sets the field it set before. A number too large
for the engine reads as infinite, so numbers are `Numeric`. Each bracket takes a code unit of the
text, so its length bounds both the levels of nesting and the items of a level.
-/

namespace Terminay.Script

section Numbers

variable {ν μ : Type}

mutual
def Json.mapNumbers (f : ν → μ) : Json ν → Json μ
  | .null => .null
  | .bool b => .bool b
  | .num n => .num (f n)
  | .str s => .str s
  | .arr items => .arr (mapItems f items)
  | .obj fields => .obj (mapFields f fields)
def mapItems (f : ν → μ) : List (Json ν) → List (Json μ)
  | [] => []
  | a :: as => a.mapNumbers f :: mapItems f as
def mapFields (f : ν → μ) : List (Str × Json ν) → List (Str × Json μ)
  | [] => []
  | (k, a) :: es => (k, a.mapNumbers f) :: mapFields f es
end

def Json.parsed (j : Json ν) : Json (Numeric ν) := j.mapNumbers .finite

end Numbers

variable {ν : Type} [Engine ν]

abbrev Read (ν : Type) := Json (Numeric ν) × Str

def isJsonSpace (u : UInt16) : Bool := u == 9 || u == 10 || u == 13 || u == 0x20

def skipSpace (s : Str) : Str := s.dropWhile isJsonSpace

def token (u : UInt16) (s : Str) : Option Str :=
  match skipSpace s with
  | [] => none
  | v :: rest => if v = u then some rest else none

def readString (s : Str) : Option (Str × Str) :=
  match closingQuote false s with
  | .error _ => none
  | .ok raw => (unescape raw.1).map fun value => (value, raw.2)

def readWord (s : Str) : Option (Read ν) :=
  if (js "true").isPrefixOf s then some (.bool true, s.drop 4)
  else if (js "false").isPrefixOf s then some (.bool false, s.drop 5)
  else if (js "null").isPrefixOf s then some (.null, s.drop 4)
  else none

def readNumber (s : Str) : Option (Read ν) :=
  (numeral s).map fun literal => (.num (Engine.read literal.1), literal.2)

def setField (fields : List (Str × Json (Numeric ν))) (key : Str) (value : Json (Numeric ν)) :
    List (Str × Json (Numeric ν)) :=
  if key ∈ fields.map (·.1) then fields.map fun e => if e.1 = key then (key, value) else e
  else fields ++ [(key, value)]

section Levels

variable (read : Str → Option (Read ν))

def readItems : ℕ → List (Json (Numeric ν)) → Str → Option (Read ν)
  | 0, _, _ => none
  | fuel + 1, items, s =>
    match read (skipSpace s) with
    | none => none
    | some (item, s) =>
      match token (unit ']') s with
      | some rest => some (.arr (items ++ [item]), rest)
      | none => (token (unit ',') s).bind (readItems fuel (items ++ [item]))

def readArray (s : Str) : Option (Read ν) :=
  match token (unit ']') s with
  | some rest => some (.arr [], rest)
  | none => readItems read (s.length + 1) [] s

def readMember (s : Str) : Option ((Str × Json (Numeric ν)) × Str) := do
  let s ← token (unit '"') s
  let key ← readString s
  let s ← token (unit ':') key.2
  let value ← read (skipSpace s)
  some ((key.1, value.1), value.2)

def readMembers : ℕ → List (Str × Json (Numeric ν)) → Str → Option (Read ν)
  | 0, _, _ => none
  | fuel + 1, fields, s =>
    match readMember read s with
    | none => none
    | some ((key, value), s) =>
      match token (unit '\x7d') s with
      | some rest => some (.obj (setField fields key value), rest)
      | none => (token (unit ',') s).bind (readMembers fuel (setField fields key value))

def readObject (s : Str) : Option (Read ν) :=
  match token (unit '\x7d') s with
  | some rest => some (.obj [], rest)
  | none => readMembers read (s.length + 1) [] s

end Levels

def readValue : ℕ → Str → Option (Read ν)
  | 0, _ => none
  | _ + 1, [] => none
  | levels + 1, u :: rest =>
    if u = unit '\x7b' then readObject (readValue levels) rest
    else if u = unit '[' then readArray (readValue levels) rest
    else if u = unit '"' then (readString rest).map fun p => (.str p.1, p.2)
    else (readWord (u :: rest)).orElse fun _ => readNumber (u :: rest)

def Json.parse (text : Str) : Option (Json (Numeric ν)) := do
  let result ← readValue text.length (skipSpace text)
  if skipSpace result.2 = [] then some result.1 else none

/-! ## What a program reads of a value -/

def Json.property {μ : Type} (j : Json μ) (key : String) : Option (Json μ) :=
  match j with
  | .obj fields => fields.lookup (js key)
  | _ => none

def Json.number? (j : Json (Numeric ν)) : Option ν :=
  match j with
  | .num (.finite n) => some n
  | _ => none

/-- Numbers are what they denote, and the integers up to the safe ones are denoted. -/
class ExactEngine (ν : Type) [Engine ν] : Prop extends LawfulEngine ν where
  value_injective : Function.Injective (Engine.value : ν → ℚ)
  value_literal : ∀ n : ℕ, n ≤ maxSafeInteger → Engine.value (Engine.literal (n : ℚ) : ν) = n

end Terminay.Script
