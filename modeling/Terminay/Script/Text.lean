import Mathlib.Algebra.GroupWithZero.Nat
import Mathlib.Algebra.Ring.Int.Defs
import Mathlib.Data.Finset.Card

/-!
# Strings of the source language

A string is any sequence of UTF-16 code units, lone surrogates included. Lengths
and slices count code units. `trim` removes the standard's white space, and
`natText` is the decimal text of a natural number.
-/

namespace Terminay.Script

abbrev Str := List UInt16

instance : LawfulBEq Str := inferInstanceAs (LawfulBEq (List UInt16))

def utf16 (c : Char) : Str :=
  if c.toNat < 0x10000 then [UInt16.ofNat c.toNat]
  else
    let v := c.toNat - 0x10000
    [UInt16.ofNat (0xD800 + v / 0x400), UInt16.ofNat (0xDC00 + v % 0x400)]

/-- The string a literal of the source denotes. -/
def js (s : String) : Str := s.toList.flatMap utf16

def unit (c : Char) : UInt16 := UInt16.ofNat c.toNat

def isWhiteSpace (u : UInt16) : Bool :=
  (9 ≤ u && u ≤ 13) || u == 0x20 || u == 0xA0 || u == 0x1680 || (0x2000 ≤ u && u ≤ 0x200A) ||
    u == 0x2028 || u == 0x2029 || u == 0x202F || u == 0x205F || u == 0x3000 || u == 0xFEFF

def trimStart (s : Str) : Str := s.dropWhile isWhiteSpace
def trimEnd (s : Str) : Str := (trimStart s.reverse).reverse
def trim (s : Str) : Str := trimEnd (trimStart s)

def isDigit (u : UInt16) : Bool := 48 ≤ u && u ≤ 57
def isLetter (u : UInt16) : Bool := (65 ≤ u && u ≤ 90) || (97 ≤ u && u ≤ 122)

/-- A string holding a NUL code unit: `includes('\0')`. -/
def hasNul (s : Str) : Bool := s.contains 0

def natText (n : ℕ) : Str := (Nat.toDigits 10 n).map unit

def digitsValue (s : Str) : ℕ := s.foldl (fun n u => 10 * n + (u.toNat - 48)) 0

theorem unit_digit {c : Char} (hc : c.isDigit) : Char.ofNat (unit c).toNat = c := by
  have hval : c.toNat ≤ 57 := by
    simp only [Char.isDigit, Bool.and_eq_true, decide_eq_true_eq] at hc
    exact hc.2
  have hunit : (unit c).toNat = c.toNat := by
    simp only [unit, UInt16.toNat_ofNat']
    omega
  rw [hunit, Char.ofNat_toNat]

theorem natText_digits (n : ℕ) :
    (natText n).map (fun u => Char.ofNat u.toNat) = Nat.toDigits 10 n := by
  rw [natText, List.map_map]
  refine (List.map_congr_left fun c hc => ?_).trans (List.map_id _)
  exact unit_digit (Nat.isDigit_of_mem_toDigits (by decide) (by decide) hc)

theorem natText_injective : Function.Injective natText := by
  intro m n h
  have hd : Nat.toDigits 10 m = Nat.toDigits 10 n := by
    rw [← natText_digits, ← natText_digits, h]
  have hv := congrArg (Nat.ofDigitChars 10 · 0) hd
  simpa only [Nat.ofDigitChars_ten_toDigits] using hv

end Terminay.Script
