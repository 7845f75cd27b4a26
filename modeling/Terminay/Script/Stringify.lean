import Terminay.Script.Json

/-!
# JSON text

`quote` is what `JSON.stringify` writes for a string: short escapes where the
grammar has them, a hexadecimal escape for other control characters and for lone
surrogates, and every other code unit as it is.
-/

namespace Terminay.Script

def isHighSurrogate (u : UInt16) : Bool := 0xD800 ≤ u && u ≤ 0xDBFF
def isLowSurrogate (u : UInt16) : Bool := 0xDC00 ≤ u && u ≤ 0xDFFF

def hexDigit (n : ℕ) : UInt16 := UInt16.ofNat (if n < 10 then 48 + n else 87 + n)

/-- `\uXXXX`, lower case. -/
def hexEscape (u : UInt16) : Str :=
  let n := u.toNat
  [unit '\\', unit 'u', hexDigit (n / 4096), hexDigit (n / 256 % 16), hexDigit (n / 16 % 16),
    hexDigit (n % 16)]

def shortEscape (u : UInt16) : Option Char :=
  if u = 8 then some 'b' else if u = 9 then some 't' else if u = 10 then some 'n'
  else if u = 12 then some 'f' else if u = 13 then some 'r'
  else if u = unit '"' then some '"' else if u = unit '\\' then some '\\' else none

def quoteUnit (u : UInt16) : Str :=
  match shortEscape u with
  | some c => [unit '\\', unit c]
  | none => if u < 0x20 then hexEscape u else [u]

/-- The body of a quoted string. A high surrogate stays as it is only before a
low one, which it then takes along. -/
def quoteBody : Str → Str
  | [] => []
  | [u] => if isHighSurrogate u || isLowSurrogate u then hexEscape u else quoteUnit u
  | u :: v :: rest =>
    if isHighSurrogate u then
      if isLowSurrogate v then u :: v :: quoteBody rest else hexEscape u ++ quoteBody (v :: rest)
    else if isLowSurrogate u then hexEscape u ++ quoteBody (v :: rest)
    else quoteUnit u ++ quoteBody (v :: rest)

def quote (s : Str) : Str := unit '"' :: quoteBody s ++ [unit '"']

variable {ν : Type} [Engine ν]

mutual
def Json.stringify : Json ν → Str
  | .null => js "null"
  | .bool b => if b then js "true" else js "false"
  | .num n => Engine.print n
  | .str s => quote s
  | .arr items => unit '[' :: stringifyItems items ++ [unit ']']
  | .obj fields => unit '\x7b' :: stringifyFields fields ++ [unit '\x7d']
def stringifyItems : List (Json ν) → Str
  | [] => []
  | [a] => a.stringify
  | a :: b :: as => a.stringify ++ unit ',' :: stringifyItems (b :: as)
def stringifyFields : List (Str × Json ν) → Str
  | [] => []
  | [(k, a)] => quote k ++ unit ':' :: a.stringify
  | (k, a) :: e :: es => quote k ++ unit ':' :: a.stringify ++ unit ',' :: stringifyFields (e :: es)
end

end Terminay.Script
