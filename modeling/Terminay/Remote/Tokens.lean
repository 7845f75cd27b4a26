import Terminay.Script.Unicode

/-!
# Ids, tokens and digests of the remote endpoints

Tokens are entropy in unpadded base64url.
-/

namespace Terminay.Remote
open Script

def isIdUnit (u : UInt16) : Bool :=
  isLetter u || isDigit u || u == unit '.' || u == unit '_' || u == unit ':' || u == unit '-'

/-- `/^[A-Za-z0-9][A-Za-z0-9._:-]{0,127}$/u` -/
def validId : Str → Bool
  | [] => false
  | u :: rest => (isLetter u || isDigit u) && (rest.length ≤ 127 && rest.all isIdUnit)

def isWellFormed : Str → Bool
  | [] => true
  | [u] => !isSurrogate u
  | u :: v :: rest =>
    if isHighSurrogate u && isLowSurrogate v then isWellFormed rest
    else !isSurrogate u && isWellFormed (v :: rest)

example : isWellFormed [0xD83D, 0xDE00] = true := by decide +kernel

theorem paired_of_wellFormed (s : Str) (h : isWellFormed s = true) : Paired s := by
  induction s using isWellFormed.induct with
  | case1 => exact Paired.nil
  | case2 u =>
    simp only [isWellFormed, Bool.not_eq_true'] at h
    exact Paired.one h
  | case3 u v rest hpair ih =>
    rw [isWellFormed, if_pos hpair] at h
    have hparts := Bool.and_eq_true_iff.mp hpair
    exact Paired.append (Paired.pair hparts.1 hparts.2) (ih h)
  | case4 u v rest hpair ih =>
    rw [isWellFormed, if_neg hpair] at h
    have hparts := Bool.and_eq_true_iff.mp h
    have hplain : isSurrogate u = false := by simpa using hparts.1
    exact Paired.cons hplain (ih hparts.2)

theorem textEncode_injective {s t : Str} (hs : Paired s) (ht : Paired t)
    (h : textEncode s = textEncode t) : s = t := by
  -- A byte order mark at the start would be dropped when the text is read back.
  have ha : Paired [unit 'a'] := Paired.one (by decide)
  have hcons : textEncode ([unit 'a'] ++ s) = textEncode ([unit 'a'] ++ t) := by
    rw [textEncode_append ha, textEncode_append ha, h]
  have hread := congrArg textDecode hcons
  have hmark : ∀ r : Str, ([unit 'a'] ++ r).head? ≠ some 0xFEFF := by
    intro r
    simp [unit]
  rw [textDecode_textEncode (ha.append hs) (hmark s),
    textDecode_textEncode (ha.append ht) (hmark t)] at hread
  simpa using hread

section Digest
variable {δ : Type} (sha256 : Bytes → δ)

def digest (value : Str) : δ := sha256 (textEncode value)

theorem digest_injective (hsha : Function.Injective sha256) {s t : Str}
    (hs : isWellFormed s = true) (ht : isWellFormed t = true)
    (h : digest sha256 s = digest sha256 t) : s = t :=
  textEncode_injective (paired_of_wellFormed s hs) (paired_of_wellFormed t ht) (hsha h)

end Digest

def base64UrlUnit (n : ℕ) : UInt16 :=
  (js "ABCDEFGHIJKLMNOPQRSTUVWXYZabcdefghijklmnopqrstuvwxyz0123456789-_").getD n (unit '_')

def toToken : Bytes → Str
  | a :: b :: c :: rest =>
    let n := a.toNat * 65536 + b.toNat * 256 + c.toNat
    base64UrlUnit (n / 262144) :: base64UrlUnit (n / 4096 % 64) :: base64UrlUnit (n / 64 % 64) ::
      base64UrlUnit (n % 64) :: toToken rest
  | [a, b] =>
    let n := a.toNat * 1024 + b.toNat * 4
    [base64UrlUnit (n / 4096), base64UrlUnit (n / 64 % 64), base64UrlUnit (n % 64)]
  | [a] => [base64UrlUnit (a.toNat / 4), base64UrlUnit (a.toNat % 4 * 16)]
  | [] => []

/-- The alphabet's units. -/
def base64UrlUnits : Str :=
  (List.range' 65 26 ++ List.range' 97 26 ++ List.range' 48 10 ++ [45, 95]).map UInt16.ofNat

theorem base64UrlUnits_plain : base64UrlUnits.Nodup ∧ base64UrlUnits.length = 64 ∧
    (base64UrlUnits.all fun u => !isSurrogate u && u != 0) = true := by
  decide +kernel

theorem base64UrlUnit_eq (n : ℕ) : base64UrlUnit n = base64UrlUnits[n]?.getD (unit '_') := by
  have hunits : js "ABCDEFGHIJKLMNOPQRSTUVWXYZabcdefghijklmnopqrstuvwxyz0123456789-_" =
      base64UrlUnits := by
    simp [js, utf16, base64UrlUnits, List.range'_succ]
  rw [base64UrlUnit, hunits, List.getD_eq_getElem?_getD]

theorem base64UrlUnit_injective {m n : ℕ} (hm : m < 64) (hn : n < 64)
    (h : base64UrlUnit m = base64UrlUnit n) : m = n := by
  obtain ⟨hnodup, hlength, -⟩ := base64UrlUnits_plain
  rw [← hlength] at hm hn
  rw [base64UrlUnit_eq, base64UrlUnit_eq, List.getElem?_eq_getElem hm,
    List.getElem?_eq_getElem hn] at h
  exact hnodup.getElem_inj_iff.mp h

example : toToken [0xFF] = [95, 119] := by decide +kernel

theorem toToken_injective (xs ys : Bytes) (hlength : xs.length = ys.length)
    (h : toToken xs = toToken ys) : xs = ys := by
  induction xs using toToken.induct generalizing ys with
  | case1 a b c xs ih =>
    match ys, hlength, h with
    | a' :: b' :: c' :: ys, hlength, h =>
      simp only [toToken, List.cons.injEq] at h
      obtain ⟨h1, h2, h3, h4, hrest⟩ := h
      have ha := a.toNat_lt
      have hb := b.toNat_lt
      have hc := c.toNat_lt
      have ha' := a'.toNat_lt
      have hb' := b'.toNat_lt
      have hc' := c'.toNat_lt
      have e1 := base64UrlUnit_injective (by omega) (by omega) h1
      have e2 := base64UrlUnit_injective (by omega) (by omega) h2
      have e3 := base64UrlUnit_injective (by omega) (by omega) h3
      have e4 := base64UrlUnit_injective (by omega) (by omega) h4
      have hxs := ih ys (by simpa using hlength) hrest
      have hsame : a.toNat = a'.toNat ∧ b.toNat = b'.toNat ∧ c.toNat = c'.toNat := by omega
      rw [UInt8.toNat_inj.mp hsame.1, UInt8.toNat_inj.mp hsame.2.1, UInt8.toNat_inj.mp hsame.2.2,
        hxs]
  | case2 a b =>
    match ys, hlength, h with
    | [a', b'], _, h =>
      simp only [toToken, List.cons.injEq, and_true] at h
      obtain ⟨h1, h2, h3⟩ := h
      have ha := a.toNat_lt
      have hb := b.toNat_lt
      have ha' := a'.toNat_lt
      have hb' := b'.toNat_lt
      have e1 := base64UrlUnit_injective (by omega) (by omega) h1
      have e2 := base64UrlUnit_injective (by omega) (by omega) h2
      have e3 := base64UrlUnit_injective (by omega) (by omega) h3
      have hsame : a.toNat = a'.toNat ∧ b.toNat = b'.toNat := by omega
      rw [UInt8.toNat_inj.mp hsame.1, UInt8.toNat_inj.mp hsame.2]
  | case3 a =>
    match ys, hlength, h with
    | [a'], _, h =>
      simp only [toToken, List.cons.injEq, and_true] at h
      have ha := a.toNat_lt
      have ha' := a'.toNat_lt
      have e1 := base64UrlUnit_injective (by omega) (by omega) h.1
      have e2 := base64UrlUnit_injective (by omega) (by omega) h.2
      have hsame : a.toNat = a'.toNat := by omega
      rw [UInt8.toNat_inj.mp hsame]
  | case4 => exact (List.length_eq_zero_iff.mp hlength.symm).symm

theorem length_toToken (xs ys : Bytes) (hlength : xs.length = ys.length) :
    (toToken xs).length = (toToken ys).length := by
  induction xs using toToken.induct generalizing ys with
  | case1 a b c xs ih =>
    match ys, hlength with
    | a' :: b' :: c' :: ys, hlength => simpa [toToken] using ih ys (by simpa using hlength)
  | case2 a b =>
    match ys, hlength with
    | [a', b'], _ => simp [toToken]
  | case3 a =>
    match ys, hlength with
    | [a'], _ => simp [toToken]
  | case4 => rw [(List.length_eq_zero_iff.mp hlength.symm)]

theorem base64UrlUnit_plain (n : ℕ) :
    isSurrogate (base64UrlUnit n) = false ∧ base64UrlUnit n ≠ 0 := by
  rw [base64UrlUnit_eq]
  cases hu : base64UrlUnits[n]? with
  | none => decide
  | some u =>
    simpa using List.all_eq_true.mp base64UrlUnits_plain.2.2 u (List.mem_of_getElem? hu)

theorem toToken_units (bytes : Bytes) : ∀ u ∈ toToken bytes, isSurrogate u = false ∧ u ≠ 0 := by
  induction bytes using toToken.induct with
  | case1 a b c rest ih => simpa [toToken, base64UrlUnit_plain] using ih
  | case2 a b => simp [toToken, base64UrlUnit_plain]
  | case3 a => simp [toToken, base64UrlUnit_plain]
  | case4 => simp [toToken]

theorem toToken_ne_nul (bytes : Bytes) : ∀ u ∈ toToken bytes, u ≠ 0 :=
  fun u hu => (toToken_units bytes u hu).2

theorem toToken_plain (bytes : Bytes) : ∀ u ∈ toToken bytes, isSurrogate u = false :=
  fun u hu => (toToken_units bytes u hu).1

theorem wellFormed_of_plain (s : Str) (h : ∀ u ∈ s, isSurrogate u = false) :
    isWellFormed s = true := by
  induction s using isWellFormed.induct with
  | case1 => rfl
  | case2 u => simp [isWellFormed, h u]
  | case3 u v rest hpair ih =>
    have hhigh := (Bool.and_eq_true_iff.mp hpair).1
    have hplain := h u (by simp)
    simp [isSurrogate, hhigh] at hplain
  | case4 u v rest hpair ih =>
    rw [isWellFormed, if_neg hpair, h u (by simp), ih fun w hw => h w (List.mem_cons_of_mem u hw)]
    rfl

theorem toToken_wellFormed (bytes : Bytes) : isWellFormed (toToken bytes) = true :=
  wellFormed_of_plain (toToken bytes) (toToken_plain bytes)

end Terminay.Remote
