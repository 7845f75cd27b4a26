import Terminay.Script.Stringify

/-!
# UTF-8 of strings

`TextEncoder` writes the scalar values of a string, a lone surrogate as U+FFFD.
-/

namespace Terminay.Script

abbrev Bytes := List UInt8

def isSurrogate (u : UInt16) : Bool := isHighSurrogate u || isLowSurrogate u

def scalar (u : UInt16) : Char := if isSurrogate u then '\uFFFD' else Char.ofNat u.toNat

def pairScalar (u v : UInt16) : Char :=
  Char.ofNat (0x10000 + (u.toNat - 0xD800) * 0x400 + (v.toNat - 0xDC00))

def scalars : Str → List Char
  | [] => []
  | [u] => [scalar u]
  | u :: v :: rest =>
    if isHighSurrogate u && isLowSurrogate v then pairScalar u v :: scalars rest
    else scalar u :: scalars (v :: rest)

def textEncode (s : Str) : Bytes := (scalars s).flatMap String.utf8EncodeChar

def dropByteOrderMark : List Char → List Char
  | [] => []
  | c :: cs => if c = '\uFEFF' then cs else c :: cs

def textDecode (bytes : Bytes) : Option Str :=
  bytes.toByteArray.utf8Decode?.map fun cs => (dropByteOrderMark cs.toList).flatMap utf16

/-- Every surrogate of the string is half of a pair. -/
def Paired (s : Str) : Prop := ∃ cs : List Char, s = cs.flatMap utf16

theorem char_valid (c : Char) : c.toNat < 0xD800 ∨ 0xDFFF < c.toNat ∧ c.toNat < 0x110000 := by
  have h := c.valid
  simp only [UInt32.isValidChar, Nat.isValidChar] at h
  exact h

theorem toNat_ofNat {n : ℕ} (h : n < 0xD800 ∨ 0xDFFF < n ∧ n < 0x110000) :
    (Char.ofNat n).toNat = n := by
  have hvalid : n.isValidChar := h
  rw [Char.ofNat, dif_pos hvalid]
  rfl

theorem isHighSurrogate_iff (u : UInt16) :
    isHighSurrogate u = true ↔ 0xD800 ≤ u.toNat ∧ u.toNat ≤ 0xDBFF := by
  simp [isHighSurrogate, UInt16.le_iff_toNat_le]

theorem isLowSurrogate_iff (u : UInt16) :
    isLowSurrogate u = true ↔ 0xDC00 ≤ u.toNat ∧ u.toNat ≤ 0xDFFF := by
  simp [isLowSurrogate, UInt16.le_iff_toNat_le]

theorem isSurrogate_iff (u : UInt16) :
    isSurrogate u = true ↔ 0xD800 ≤ u.toNat ∧ u.toNat ≤ 0xDFFF := by
  rw [isSurrogate, Bool.or_eq_true, isHighSurrogate_iff, isLowSurrogate_iff]
  omega

theorem scalar_cons {u : UInt16} (hu : isSurrogate u = false) (s : Str) :
    scalars (u :: s) = Char.ofNat u.toNat :: scalars s := by
  have hhigh : isHighSurrogate u = false := by
    rw [isSurrogate, Bool.or_eq_false_iff] at hu
    exact hu.1
  cases s with
  | nil => simp [scalars, scalar, hu]
  | cons v rest => simp [scalars, scalar, hu, hhigh]

theorem scalars_utf16 (c : Char) (s : Str) : scalars (utf16 c ++ s) = c :: scalars s := by
  have hc := char_valid c
  by_cases hbmp : c.toNat < 0x10000
  · have hnat : (UInt16.ofNat c.toNat).toNat = c.toNat := by
      rw [UInt16.toNat_ofNat']
      omega
    have hplain : isSurrogate (UInt16.ofNat c.toNat) = false := by
      rw [Bool.eq_false_iff, ne_eq, isSurrogate_iff, hnat]
      omega
    rw [utf16, if_pos hbmp, List.singleton_append, scalar_cons hplain, hnat, Char.ofNat_toNat]
  · have hhigh : (UInt16.ofNat (0xD800 + (c.toNat - 0x10000) / 0x400)).toNat =
        0xD800 + (c.toNat - 0x10000) / 0x400 := by
      rw [UInt16.toNat_ofNat']
      omega
    have hlow : (UInt16.ofNat (0xDC00 + (c.toNat - 0x10000) % 0x400)).toNat =
        0xDC00 + (c.toNat - 0x10000) % 0x400 := by
      rw [UInt16.toNat_ofNat']
      omega
    have hpair : (isHighSurrogate (UInt16.ofNat (0xD800 + (c.toNat - 0x10000) / 0x400)) &&
        isLowSurrogate (UInt16.ofNat (0xDC00 + (c.toNat - 0x10000) % 0x400))) = true := by
      rw [Bool.and_eq_true, isHighSurrogate_iff, isLowSurrogate_iff, hhigh, hlow]
      omega
    have hsum : 0x10000 + (c.toNat - 0x10000) / 0x400 * 0x400 + (c.toNat - 0x10000) % 0x400 =
        c.toNat := by omega
    simp only [utf16, if_neg hbmp, List.cons_append, List.nil_append, scalars, hpair, if_true,
      pairScalar, hhigh, hlow, Nat.add_sub_cancel_left, hsum, Char.ofNat_toNat]

theorem scalars_append (cs : List Char) (s : Str) :
    scalars (cs.flatMap utf16 ++ s) = cs ++ scalars s := by
  induction cs with
  | nil => rfl
  | cons c cs ih => rw [List.flatMap_cons, List.append_assoc, scalars_utf16, ih, List.cons_append]

theorem textEncode_append {s : Str} (hs : Paired s) (t : Str) :
    textEncode (s ++ t) = textEncode s ++ textEncode t := by
  obtain ⟨cs, rfl⟩ := hs
  have hself := scalars_append cs []
  simp only [List.append_nil, scalars] at hself
  simp only [textEncode, scalars_append, hself, List.flatMap_append]

theorem textDecode_textEncode {s : Str} (hs : Paired s) (hbom : s.head? ≠ some 0xFEFF) :
    textDecode (textEncode s) = some s := by
  obtain ⟨cs, rfl⟩ := hs
  have hself := scalars_append cs []
  simp only [List.append_nil, scalars] at hself
  have hmark : dropByteOrderMark cs = cs := by
    cases cs with
    | nil => rfl
    | cons c cs =>
      have hc : c ≠ '\uFEFF' := by
        rintro rfl
        exact hbom (by rfl)
      rw [dropByteOrderMark, if_neg hc]
  have hbytes : (textEncode (cs.flatMap utf16)).toByteArray = cs.utf8Encode := by
    rw [textEncode, hself, List.utf8Encode]
  rw [textDecode, hbytes, List.utf8Decode?_utf8Encode, Option.map_some]
  simp only [hmark]

namespace Paired

theorem nil : Paired [] := ⟨[], rfl⟩

theorem append {s t : Str} (hs : Paired s) (ht : Paired t) : Paired (s ++ t) := by
  obtain ⟨cs, rfl⟩ := hs
  obtain ⟨ds, rfl⟩ := ht
  exact ⟨cs ++ ds, List.flatMap_append.symm⟩

theorem one {u : UInt16} (hu : isSurrogate u = false) : Paired [u] := by
  have hnot : ¬ (0xD800 ≤ u.toNat ∧ u.toNat ≤ 0xDFFF) := by
    rw [← isSurrogate_iff, hu]
    exact Bool.false_ne_true
  have hlt := u.toNat_lt
  have hnat : (Char.ofNat u.toNat).toNat = u.toNat := toNat_ofNat (by omega)
  refine ⟨[Char.ofNat u.toNat], ?_⟩
  rw [List.flatMap_singleton, utf16, hnat, if_pos (by omega), UInt16.ofNat_toNat]

theorem cons {u : UInt16} (hu : isSurrogate u = false) {s : Str} (hs : Paired s) :
    Paired (u :: s) := (one hu).append hs

theorem pair {u v : UInt16} (hu : isHighSurrogate u = true) (hv : isLowSurrogate v = true) :
    Paired [u, v] := by
  rw [isHighSurrogate_iff] at hu
  rw [isLowSurrogate_iff] at hv
  have hnat : (pairScalar u v).toNat =
      0x10000 + (u.toNat - 0xD800) * 0x400 + (v.toNat - 0xDC00) := toNat_ofNat (by omega)
  refine ⟨[pairScalar u v], ?_⟩
  have hhigh : 0xD800 + ((pairScalar u v).toNat - 0x10000) / 0x400 = u.toNat := by omega
  have hlow : 0xDC00 + ((pairScalar u v).toNat - 0x10000) % 0x400 = v.toNat := by omega
  rw [List.flatMap_singleton, utf16, if_neg (by omega)]
  simp only [hhigh, hlow, UInt16.ofNat_toNat]

theorem of_plain {s : Str} (hs : ∀ u ∈ s, isSurrogate u = false) : Paired s := by
  induction s with
  | nil => exact nil
  | cons u s ih => exact cons (hs u List.mem_cons_self) (ih fun v hv => hs v (List.mem_cons_of_mem u hv))

theorem word_null : Paired (js "null") := by
  apply of_plain
  simp [js, utf16, isSurrogate, isHighSurrogate, isLowSurrogate]

theorem word_true : Paired (js "true") := by
  apply of_plain
  simp [js, utf16, isSurrogate, isHighSurrogate, isLowSurrogate]

theorem word_false : Paired (js "false") := by
  apply of_plain
  simp [js, utf16, isSurrogate, isHighSurrogate, isLowSurrogate]

end Paired

theorem hexDigit_plain {n : ℕ} (hn : n < 16) : isSurrogate (hexDigit n) = false := by
  have hall : ∀ m, m < 16 → isSurrogate (hexDigit m) = false := by decide
  exact hall n hn

theorem hexEscape_paired (u : UInt16) : Paired (hexEscape u) := by
  have hlt := u.toNat_lt
  apply Paired.of_plain
  intro v hv
  simp only [hexEscape, List.mem_cons, List.not_mem_nil, or_false] at hv
  rcases hv with rfl | rfl | rfl | rfl | rfl | rfl
  · decide
  · decide
  · exact hexDigit_plain (by omega)
  · exact hexDigit_plain (by omega)
  · exact hexDigit_plain (by omega)
  · exact hexDigit_plain (by omega)

theorem shortEscape_plain {u : UInt16} {c : Char} (h : shortEscape u = some c) :
    isSurrogate (unit c) = false := by
  unfold shortEscape at h
  split_ifs at h <;> cases h <;> decide

theorem quoteUnit_paired {u : UInt16} (hu : isSurrogate u = false) : Paired (quoteUnit u) := by
  unfold quoteUnit
  cases h : shortEscape u with
  | some c => exact Paired.cons (by decide) (Paired.one (shortEscape_plain h))
  | none =>
    by_cases hcontrol : u < 0x20
    · simp only [hcontrol, if_true]
      exact hexEscape_paired u
    · simp only [hcontrol, if_false]
      exact Paired.one hu

theorem quoteBody_paired (s : Str) : Paired (quoteBody s) := by
  fun_induction quoteBody s with
  | case1 => exact Paired.nil
  | case2 u h => exact hexEscape_paired u
  | case3 u h => exact quoteUnit_paired (by simpa [isSurrogate] using h)
  | case4 u v rest hu hv ih => exact (Paired.pair hu hv).append ih
  | case5 u v rest hu hv ih => exact (hexEscape_paired u).append ih
  | case6 u v rest hu hv ih => exact (hexEscape_paired u).append ih
  | case7 u v rest hu hv ih =>
    exact (quoteUnit_paired (by simp [isSurrogate, hu, hv])).append ih

theorem quote_paired (s : Str) : Paired (quote s) :=
  (Paired.cons (by decide) (quoteBody_paired s)).append (Paired.one (by decide))

end Terminay.Script
