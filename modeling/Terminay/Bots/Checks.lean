import Terminay.Lib.Entries
import Terminay.Script.Unicode

/-!
# Errors, checked texts and identifiers of bots

Generated identifiers and digests carry their form, so a stored one is never
malformed.
-/

namespace Terminay.Bots
open Script

inductive BotErrorCode where | busy | notFound | unavailable | validation | resource
  deriving DecidableEq

structure BotError where
  code : BotErrorCode
  message : Str
  deriving DecidableEq

/-- `[a-z0-9]` -/
def isIdUnit (u : UInt16) : Bool := isDigit u || (97 ≤ u && u ≤ 122)

/-- `[0-9a-f]` -/
def isHexUnit (u : UInt16) : Bool := isDigit u || (97 ≤ u && u ≤ 102)

/-- `/^[a-z0-9]{24}$/` -/
def IsId (s : Str) : Prop := s.length = 24 ∧ s.all isIdUnit = true

instance {s : Str} : Decidable (IsId s) := inferInstanceAs (Decidable (_ ∧ _))

structure Id24 where
  text : Str
  valid : IsId text
  deriving DecidableEq

structure Digest where
  text : Str
  valid : text.length = 64 ∧ text.all isHexUnit = true
  deriving DecidableEq

theorem isIdUnit_hex {u : UInt16} (h : isHexUnit u = true) : isIdUnit u = true := by
  simp only [isHexUnit, isIdUnit, Bool.or_eq_true, Bool.and_eq_true, decide_eq_true_eq] at h ⊢
  rcases h with hdigit | ⟨hlow, hhigh⟩
  · exact .inl hdigit
  · have hz : (102 : UInt16) ≤ 122 := by decide
    exact .inr ⟨hlow, UInt16.le_trans hhigh hz⟩

/-- `digest('hex').slice(0, 24)` -/
def Digest.short (d : Digest) : Id24 where
  text := d.text.take 24
  valid := by
    obtain ⟨hlength, hall⟩ := d.valid
    refine ⟨by simp [hlength], ?_⟩
    rw [List.all_eq_true] at hall ⊢
    intro u hu
    exact isIdUnit_hex (hall u (List.mem_of_mem_take hu))

def utf8Length (s : Str) : ℕ := (textEncode s).length

variable {ν : Type}

def object : Json ν → Except BotError (List (Str × Json ν))
  | .obj fields => .ok fields
  | _ => .error ⟨.validation, js "expected an object"⟩

/-- What `text` accepts where an empty text is allowed. -/
def isText (s : Str) (limit : ℕ) : Bool := utf8Length s ≤ limit && !hasNul s

/-- A `~` that is not followed by `0` or `1`. -/
def badEscape : Str → Bool
  | [] => false
  | [u] => u == unit '~'
  | u :: v :: rest =>
    u == unit '~' && v != unit '0' && v != unit '1' || badEscape (v :: rest)

def pointer (s : Str) : Except BotError Unit :=
  if isText s 1024 = false then .error ⟨.validation, js "invalid JSON Pointer"⟩
  else if s ≠ [] ∧ (s.head? ≠ some (unit '/') ∨ badEscape s = true) then
    .error ⟨.validation, js "Invalid JSON Pointer"⟩
  else .ok ()

end Terminay.Bots
