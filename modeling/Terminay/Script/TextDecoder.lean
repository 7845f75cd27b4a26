import Terminay.Script.Unicode

/-!
# Decoding UTF-8 with replacement

A `TextDecoder` that is not fatal reads one byte after the other. A byte that does not go on with
the character begun puts U+FFFD in its place and is read again, and so does the end of the bytes.
-/

namespace Terminay.Script

/-- A character begun: the bytes still owed, and what the next one may be. Whatever comes of it
is no ASCII character. -/
structure Begun where
  owed : ℕ
  lower : ℕ
  upper : ℕ
  codePoint : ℕ
  continuing : 0x80 ≤ lower ∧ upper ≤ 0xBF
  beyond : 2 ≤ codePoint ∨ 2 ≤ owed ∧ (1 ≤ codePoint ∨ 0x82 ≤ lower)
  deriving DecidableEq

def replacement : Char := '\uFFFD'

def lead (b : UInt8) : Option Begun × List Char :=
  let n := b.toNat
  if n ≤ 0x7F then (none, [Char.ofNat n])
  else if h : 0xC2 ≤ n ∧ n ≤ 0xDF then
    (some ⟨1, 0x80, 0xBF, n % 32, by decide, .inl (by omega)⟩, [])
  else if n = 0xE0 then (some ⟨2, 0xA0, 0xBF, n % 16, by decide, .inr (by omega)⟩, [])
  else if h : n = 0xED then (some ⟨2, 0x80, 0x9F, n % 16, by decide, .inl (by omega)⟩, [])
  else if h : 0xE1 ≤ n ∧ n ≤ 0xEF then
    (some ⟨2, 0x80, 0xBF, n % 16, by decide, .inr (by omega)⟩, [])
  else if n = 0xF0 then (some ⟨3, 0x90, 0xBF, n % 8, by decide, .inr (by omega)⟩, [])
  else if h : n = 0xF4 then (some ⟨3, 0x80, 0x8F, n % 8, by decide, .inl (by omega)⟩, [])
  else if h : 0xF1 ≤ n ∧ n ≤ 0xF3 then
    (some ⟨3, 0x80, 0xBF, n % 8, by decide, .inr (by omega)⟩, [])
  else (none, [replacement])

def Begun.Takes (d : Begun) (b : UInt8) : Prop := d.lower ≤ b.toNat ∧ b.toNat ≤ d.upper

instance (d : Begun) (b : UInt8) : Decidable (d.Takes b) := inferInstanceAs (Decidable (_ ∧ _))

def Begun.next (d : Begun) (b : UInt8) (h : d.Takes b) : Option Begun × List Char :=
  let codePoint := d.codePoint * 64 + b.toNat % 64
  if howed : d.owed ≤ 1 then (none, [Char.ofNat codePoint])
  else
    have hbeyond : 2 ≤ codePoint := by
      have hcontinuing := d.continuing
      have hbeyond := d.beyond
      have hlower := h.1
      have hupper := h.2
      omega
    (some ⟨d.owed - 1, 0x80, 0xBF, codePoint, by decide, .inl hbeyond⟩, [])

def decodeByte (begun : Option Begun) (b : UInt8) : Option Begun × List Char :=
  match begun with
  | none => lead b
  | some d => if h : d.Takes b then d.next b h else ((lead b).1, replacement :: (lead b).2)

def decodeBytes (begun : Option Begun) : Bytes → Option Begun × List Char
  | [] => (begun, [])
  | b :: bytes =>
    let after := decodeBytes (decodeByte begun b).1 bytes
    (after.1, (decodeByte begun b).2 ++ after.2)

def flush : Option Begun → List Char
  | none => []
  | some _ => [replacement]

def decodeAll (begun : Option Begun) (bytes : Bytes) : List Char :=
  (decodeBytes begun bytes).2 ++ flush (decodeBytes begun bytes).1

def replacingDecode (bytes : Bytes) : List Char := dropByteOrderMark (decodeAll none bytes)

section Decoding

variable {d : Begun} {b : UInt8} {xs : Bytes}

theorem decodeBytes_append (begun : Option Begun) (xs ys : Bytes) :
    decodeBytes begun (xs ++ ys) =
      ((decodeBytes (decodeBytes begun xs).1 ys).1,
        (decodeBytes begun xs).2 ++ (decodeBytes (decodeBytes begun xs).1 ys).2) := by
  induction xs generalizing begun with
  | nil => rfl
  | cons b xs ih => simp only [List.cons_append, decodeBytes, ih, List.append_assoc]

theorem decodeAll_append (begun : Option Begun) (xs ys : Bytes) :
    decodeAll begun (xs ++ ys) =
      (decodeBytes begun xs).2 ++ decodeAll (decodeBytes begun xs).1 ys := by
  simp only [decodeAll, decodeBytes_append, List.append_assoc]

theorem decodeAll_cons (begun : Option Begun) (b : UInt8) (xs : Bytes) :
    decodeAll begun (b :: xs) = (decodeByte begun b).2 ++ decodeAll (decodeByte begun b).1 xs := by
  simp only [decodeAll, decodeBytes, List.append_assoc]

theorem lead_taken (h : d.Takes b) : lead b = (none, [replacement]) := by
  have hlower := d.continuing.1
  have hupper := d.continuing.2
  have hb : 0x80 ≤ b.toNat ∧ b.toNat ≤ 0xBF := ⟨hlower.trans h.1, h.2.trans hupper⟩
  unfold lead
  dsimp only
  split_ifs <;> first | rfl | omega

theorem decodeAll_broken (h : ∀ b ∈ xs.head?, ¬ d.Takes b) :
    decodeAll (some d) xs = replacement :: decodeAll none xs := by
  cases xs with
  | nil => rfl
  | cons b xs =>
    have hb : ¬ d.Takes b := h b rfl
    simp only [decodeAll_cons, decodeByte, dif_neg hb, List.cons_append]

theorem next_last (h : d.Takes b) (howed : d.owed ≤ 1) :
    d.next b h = (none, [Char.ofNat (d.codePoint * 64 + b.toNat % 64)]) ∧
      0x80 ≤ d.codePoint * 64 + b.toNat % 64 := by
  have hbeyond := d.beyond
  refine ⟨by rw [Begun.next, dif_pos howed], by omega⟩

theorem next_more (h : d.Takes b) (howed : ¬ d.owed ≤ 1) :
    ∃ more, d.next b h = (some more, []) := by
  rw [Begun.next, dif_neg howed]
  exact ⟨_, rfl⟩

theorem ofNat_ne {n : ℕ} {c : Char} (hn : 0x80 ≤ n) (hc : 0 < c.toNat ∧ c.toNat < 0x80) :
    Char.ofNat n ≠ c := by
  rintro rfl
  by_cases hvalid : n.isValidChar
  · have hnat : (Char.ofNat n).toNat = n := by
      rw [Char.ofNat, dif_pos hvalid]
      rfl
    omega
  · rw [Char.ofNat, dif_neg hvalid] at hc
    exact absurd hc.1 (by decide)

end Decoding

end Terminay.Script
