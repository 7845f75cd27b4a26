import Terminay.Script.Unicode

/-!
# Reading string and number literals

`closingQuote` finds the end of a string literal, `unescape` is what `JSON.parse` makes of its
body, and `numeral` is the longest number literal at the start of a text.
-/

namespace Terminay.Script

def closingQuote : Bool → Str → Except Str (Str × Str)
  | _, [] => .error (js "unterminated string")
  | escaped, u :: rest =>
    if u = unit '"' ∧ escaped = false then .ok ([], rest)
    else if u < 0x20 then .error (js "control character in string")
    else (closingQuote (!escaped && u == unit '\\') rest).map fun p => (u :: p.1, p.2)

def hexValue (u : UInt16) : Option ℕ :=
  if isDigit u then some (u.toNat - 48)
  else if 97 ≤ u ∧ u ≤ 102 then some (u.toNat - 87)
  else if 65 ≤ u ∧ u ≤ 70 then some (u.toNat - 55)
  else none

def hexUnit (a b c d : UInt16) : Option UInt16 :=
  match hexValue a, hexValue b, hexValue c, hexValue d with
  | some a, some b, some c, some d => some (UInt16.ofNat (4096 * a + 256 * b + 16 * c + d))
  | _, _, _, _ => none

def shortUnescape (u : UInt16) : Option UInt16 :=
  if u = unit '"' ∨ u = unit '\\' ∨ u = unit '/' then some u
  else if u = unit 'b' then some 8 else if u = unit 'f' then some 12
  else if u = unit 'n' then some 10 else if u = unit 'r' then some 13
  else if u = unit 't' then some 9 else none

def unescape : Str → Option Str
  | [] => some []
  | u :: rest =>
    if u = unit '\\' then
      match rest with
      | [] => none
      | e :: tail =>
        if e = unit 'u' then
          match tail with
          | a :: b :: c :: d :: tail =>
            match hexUnit a b c d with
            | some v => (unescape tail).map (v :: ·)
            | none => none
          | _ => none
        else
          match shortUnescape e with
          | some v => (unescape tail).map (v :: ·)
          | none => none
    else if u = unit '"' ∨ u < 0x20 then none
    else (unescape rest).map (u :: ·)

structure Stands (part : Str) (u : UInt16) : Prop where
  scanned : ∀ t, closingQuote false (part ++ t) =
    (closingQuote false t).map fun p => (part ++ p.1, p.2)
  reads : ∀ t, unescape (part ++ t) = (unescape t).map (u :: ·)

theorem map_map {α β γ : Type} (f : α → β) (g : β → γ) (x : Except Str α) :
    (x.map f).map g = x.map fun a => g (f a) := by
  cases x <;> rfl

theorem stands_plain {u : UInt16} (hquote : u ≠ unit '"') (hslash : u ≠ unit '\\')
    (hcontrol : ¬ u < 0x20) : Stands [u] u where
  scanned t := by simp [closingQuote, hquote, beq_false_of_ne hslash, hcontrol]
  reads t := by
    rw [List.singleton_append, unescape.eq_def]
    simp [hquote, hslash, hcontrol]

theorem stands_short {u e : UInt16} (he : e ≠ unit 'u') (hcontrol : ¬ e < 0x20)
    (h : shortUnescape e = some u) : Stands [unit '\\', e] u where
  scanned t := by
    have hslash : unit '\\' ≠ unit '"' := by decide
    have hsmall : ¬ unit '\\' < 0x20 := by decide
    simp [closingQuote, hslash, hsmall, hcontrol, map_map]
  reads t := by
    rw [List.cons_append, List.singleton_append, unescape.eq_def]
    simp [he, h]

theorem hexValue_hexDigit {n : ℕ} (hn : n < 16) : hexValue (hexDigit n) = some n := by
  have hall : ∀ m, m < 16 → hexValue (hexDigit m) = some m := by decide
  exact hall n hn

theorem hexUnit_digits (u : UInt16) :
    hexUnit (hexDigit (u.toNat / 4096)) (hexDigit (u.toNat / 256 % 16))
      (hexDigit (u.toNat / 16 % 16)) (hexDigit (u.toNat % 16)) = some u := by
  have hlt := u.toNat_lt
  have hsum : 4096 * (u.toNat / 4096) + 256 * (u.toNat / 256 % 16) + 16 * (u.toNat / 16 % 16) +
      u.toNat % 16 = u.toNat := by omega
  rw [hexUnit, hexValue_hexDigit (by omega), hexValue_hexDigit (by omega),
    hexValue_hexDigit (by omega), hexValue_hexDigit (by omega)]
  simp only [hsum, UInt16.ofNat_toNat]

theorem hexDigit_ordinary {n : ℕ} (hn : n < 16) :
    hexDigit n ≠ unit '"' ∧ hexDigit n ≠ unit '\\' ∧ ¬ hexDigit n < 0x20 := by
  have hall : ∀ m, m < 16 →
      hexDigit m ≠ unit '"' ∧ hexDigit m ≠ unit '\\' ∧ ¬ hexDigit m < 0x20 := by decide
  exact hall n hn

theorem stands_hex (u : UInt16) : Stands (hexEscape u) u where
  scanned t := by
    have hlt := u.toNat_lt
    obtain ⟨ha, ha', ha''⟩ := hexDigit_ordinary (n := u.toNat / 4096) (by omega)
    obtain ⟨hb, hb', hb''⟩ := hexDigit_ordinary (n := u.toNat / 256 % 16) (by omega)
    obtain ⟨hc, hc', hc''⟩ := hexDigit_ordinary (n := u.toNat / 16 % 16) (by omega)
    obtain ⟨hd, hd', hd''⟩ := hexDigit_ordinary (n := u.toNat % 16) (by omega)
    have hslash : unit '\\' ≠ unit '"' := by decide
    have hsmall : ¬ unit '\\' < 0x20 := by decide
    have hu : unit 'u' ≠ unit '"' ∧ ¬ unit 'u' < 0x20 := by decide
    simp [hexEscape, closingQuote, hslash, hsmall, hu, ha, beq_false_of_ne ha', ha'', hb,
      beq_false_of_ne hb', hb'', hc, beq_false_of_ne hc', hc'', hd, beq_false_of_ne hd', hd'', map_map]
  reads t := by
    rw [hexEscape, List.cons_append, unescape.eq_def]
    simp [hexUnit_digits]

theorem shortEscape_stands {u : UInt16} {c : Char} (h : shortEscape u = some c) :
    Stands [unit '\\', unit c] u := by
  have hall : unit c ≠ unit 'u' ∧ ¬ unit c < 0x20 ∧ shortUnescape (unit c) = some u := by
    unfold shortEscape at h
    split_ifs at h <;> cases h <;> subst_vars <;> decide
  exact stands_short hall.1 hall.2.1 hall.2.2

theorem quoteUnit_stands (u : UInt16) : Stands (quoteUnit u) u := by
  unfold quoteUnit
  cases h : shortEscape u with
  | some c => exact shortEscape_stands h
  | none =>
    by_cases hcontrol : u < 0x20
    · simp only [hcontrol, if_true]
      exact stands_hex u
    · simp only [hcontrol, if_false]
      refine stands_plain ?_ ?_ hcontrol
      · rintro rfl
        cases h
      · rintro rfl
        cases h

theorem surrogate_stands {u : UInt16} (hu : isSurrogate u = true) : Stands [u] u := by
  rw [isSurrogate_iff] at hu
  apply stands_plain
  · rintro rfl
    revert hu
    decide
  · rintro rfl
    revert hu
    decide
  · rw [UInt16.lt_iff_toNat_lt]
    have h32 : (0x20 : UInt16).toNat = 32 := rfl
    omega

structure Denotes (body s : Str) : Prop where
  scanned : ∀ rest, closingQuote false (body ++ unit '"' :: rest) = .ok (body, rest)
  reads : unescape body = some s

namespace Denotes

theorem nil : Denotes [] [] where
  scanned rest := by simp [closingQuote]
  reads := rfl

theorem cons {part body s : Str} {u : UInt16} (hp : Stands part u) (h : Denotes body s) :
    Denotes (part ++ body) (u :: s) where
  scanned rest := by
    rw [List.append_assoc, hp.scanned, h.scanned]
    rfl
  reads := by rw [hp.reads, h.reads, Option.map_some]

theorem one {part : Str} {u : UInt16} (hp : Stands part u) : Denotes part [u] := by
  have h := nil.cons hp
  rwa [List.append_nil] at h

end Denotes

theorem quoteBody_denotes (s : Str) : Denotes (quoteBody s) s := by
  fun_induction quoteBody s with
  | case1 => exact Denotes.nil
  | case2 u h => exact Denotes.one (stands_hex u)
  | case3 u h => exact Denotes.one (quoteUnit_stands u)
  | case4 u v rest hu hv ih =>
    have hlow := ih.cons (surrogate_stands (u := v) (by simp [isSurrogate, hv]))
    exact hlow.cons (surrogate_stands (u := u) (by simp [isSurrogate, hu]))
  | case5 u v rest hu hv ih => exact ih.cons (stands_hex u)
  | case6 u v rest hu hv ih => exact ih.cons (stands_hex u)
  | case7 u v rest hu hv ih => exact ih.cons (quoteUnit_stands u)

def takeDigits : Str → Str × Str
  | [] => ([], [])
  | u :: rest => if isDigit u then (u :: (takeDigits rest).1, (takeDigits rest).2) else ([], u :: rest)

/-- `-?` -/
def takeSign : Str → Str × Str
  | [] => ([], [])
  | u :: rest => if u = unit '-' then ([u], rest) else ([], u :: rest)

/-- `0|[1-9]\d*` -/
def takeInteger : Str → Option (Str × Str)
  | [] => none
  | u :: rest =>
    if u = unit '0' then some ([u], rest)
    else if isDigit u then some (u :: (takeDigits rest).1, (takeDigits rest).2)
    else none

/-- `(?:\.\d+)?` -/
def takeFraction : Str → Str × Str
  | [] => ([], [])
  | u :: rest =>
    if u = unit '.' ∧ (takeDigits rest).1 ≠ [] then (u :: (takeDigits rest).1, (takeDigits rest).2)
    else ([], u :: rest)

/-- `[+-]?` -/
def takeExponentSign : Str → Str × Str
  | [] => ([], [])
  | u :: rest => if u = unit '+' ∨ u = unit '-' then ([u], rest) else ([], u :: rest)

/-- `(?:[eE][+-]?\d+)?` -/
def takeExponent : Str → Str × Str
  | [] => ([], [])
  | u :: rest =>
    let sign := takeExponentSign rest
    let digits := takeDigits sign.2
    if (u = unit 'e' ∨ u = unit 'E') ∧ digits.1 ≠ [] then (u :: sign.1 ++ digits.1, digits.2)
    else ([], u :: rest)

def numeral (s : Str) : Option (Str × Str) :=
  let sign := takeSign s
  match takeInteger sign.2 with
  | none => none
  | some integer =>
    let fraction := takeFraction integer.2
    let exponent := takeExponent fraction.2
    some (sign.1 ++ integer.1 ++ fraction.1 ++ exponent.1, exponent.2)

/-- The engine prints a finite number as one literal and reads it back. -/
class LawfulEngine (ν : Type) [Engine ν] : Prop where
  print_numeral : ∀ n : ν, numeral (Engine.print n) = some (Engine.print n, [])
  read_print : ∀ n : ν, Engine.read (Engine.print n) = .finite n

def Delimited (rest : Str) : Prop :=
  ∀ u ∈ rest.head?, isDigit u = false ∧ u ≠ unit '.' ∧ u ≠ unit 'e' ∧ u ≠ unit 'E' ∧ u ≠ unit '-' ∧
    u ≠ unit '+'

def Stable (f : Str → Str × Str) : Prop :=
  ∀ s rest, Delimited rest → f (s ++ rest) = ((f s).1, (f s).2 ++ rest)

theorem takeDigits_stable : Stable takeDigits := by
  intro s rest hrest
  induction s with
  | nil =>
    cases rest with
    | nil => rfl
    | cons u rest => simp [takeDigits, (hrest u rfl).1]
  | cons u s ih =>
    rw [List.cons_append, takeDigits, takeDigits, ih]
    split_ifs <;> rfl

theorem takeSign_stable : Stable takeSign := by
  intro s rest hrest
  cases s with
  | nil =>
    cases rest with
    | nil => rfl
    | cons u rest => simp [takeSign, (hrest u rfl).2.2.2.2.1]
  | cons u s =>
    rw [List.cons_append, takeSign, takeSign]
    split_ifs <;> rfl

theorem takeFraction_stable : Stable takeFraction := by
  intro s rest hrest
  cases s with
  | nil =>
    cases rest with
    | nil => rfl
    | cons u rest => simp [takeFraction, (hrest u rfl).2.1]
  | cons u s =>
    rw [List.cons_append, takeFraction, takeFraction, takeDigits_stable s rest hrest]
    split_ifs <;> rfl

theorem takeExponentSign_stable : Stable takeExponentSign := by
  intro s rest hrest
  cases s with
  | nil =>
    cases rest with
    | nil => rfl
    | cons u rest => simp [takeExponentSign, (hrest u rfl).2.2.2.2.1, (hrest u rfl).2.2.2.2.2]
  | cons u s =>
    rw [List.cons_append, takeExponentSign, takeExponentSign]
    split_ifs <;> rfl

theorem takeExponent_stable : Stable takeExponent := by
  intro s rest hrest
  cases s with
  | nil =>
    cases rest with
    | nil => rfl
    | cons u rest => simp [takeExponent, (hrest u rfl).2.2.1, (hrest u rfl).2.2.2.1]
  | cons u s =>
    simp only [List.cons_append, takeExponent, takeExponentSign_stable s rest hrest,
      takeDigits_stable _ rest hrest]
    split_ifs <;> rfl

theorem takeInteger_stable {s : Str} {p : Str × Str} (h : takeInteger s = some p) {rest : Str}
    (hrest : Delimited rest) : takeInteger (s ++ rest) = some (p.1, p.2 ++ rest) := by
  cases s with
  | nil => cases h
  | cons u s =>
    rw [takeInteger] at h
    rw [List.cons_append, takeInteger, takeDigits_stable s rest hrest]
    split_ifs at h ⊢ <;> cases h <;> rfl

theorem numeral_append {s : Str} {p : Str × Str} (h : numeral s = some p) {rest : Str}
    (hrest : Delimited rest) : numeral (s ++ rest) = some (p.1, p.2 ++ rest) := by
  simp only [numeral, takeSign_stable s rest hrest] at h ⊢
  cases hint : takeInteger (takeSign s).2 with
  | none => simp [hint] at h
  | some integer =>
    simp only [hint, Option.some.injEq] at h
    rw [takeInteger_stable hint hrest]
    simp only [takeFraction_stable _ rest hrest, takeExponent_stable _ rest hrest, ← h]

def isNumberUnit (u : UInt16) : Bool :=
  isDigit u || u == unit '-' || u == unit '+' || u == unit '.' || u == unit 'e' || u == unit 'E'

theorem takeDigits_units (s : Str) : ∀ u ∈ (takeDigits s).1, isNumberUnit u = true := by
  induction s with
  | nil => simp [takeDigits]
  | cons u s ih =>
    rw [takeDigits]
    split_ifs with hu
    · simpa [isNumberUnit, hu] using ih
    · simp

theorem takeSign_units (s : Str) : ∀ u ∈ (takeSign s).1, isNumberUnit u = true := by
  cases s with
  | nil => simp [takeSign]
  | cons u s =>
    rw [takeSign]
    split_ifs with hu
    · simp [isNumberUnit, hu]
    · simp

theorem takeFraction_units (s : Str) : ∀ u ∈ (takeFraction s).1, isNumberUnit u = true := by
  cases s with
  | nil => simp [takeFraction]
  | cons u s =>
    rw [takeFraction]
    split_ifs with hu
    · simpa [isNumberUnit, hu.1] using takeDigits_units s
    · simp

theorem takeExponentSign_units (s : Str) : ∀ u ∈ (takeExponentSign s).1, isNumberUnit u = true := by
  cases s with
  | nil => simp [takeExponentSign]
  | cons u s =>
    rw [takeExponentSign]
    split_ifs with hu
    · rcases hu with rfl | rfl <;> simp [isNumberUnit]
    · simp

theorem takeExponent_units (s : Str) : ∀ u ∈ (takeExponent s).1, isNumberUnit u = true := by
  cases s with
  | nil => simp [takeExponent]
  | cons u s =>
    simp only [takeExponent]
    split_ifs with hu
    · have hhead : isNumberUnit u = true := by
        rcases hu.1 with rfl | rfl <;> simp [isNumberUnit]
      have hsign := takeExponentSign_units s
      have hdigits := takeDigits_units (takeExponentSign s).2
      intro v hv
      rcases List.mem_append.mp hv with hv | hv
      · rcases List.mem_cons.mp hv with rfl | hv
        · exact hhead
        · exact hsign v hv
      · exact hdigits v hv
    · simp

theorem takeInteger_units {s : Str} {p : Str × Str} (h : takeInteger s = some p) :
    ∀ u ∈ p.1, isNumberUnit u = true := by
  cases s with
  | nil => cases h
  | cons u s =>
    rw [takeInteger] at h
    split_ifs at h with hzero hdigit
    · cases h
      simp [isNumberUnit, hzero, isDigit, unit]
    · cases h
      simpa [isNumberUnit, hdigit] using takeDigits_units s

theorem numeral_units {s : Str} {p : Str × Str} (h : numeral s = some p) :
    ∀ u ∈ p.1, isNumberUnit u = true := by
  simp only [numeral] at h
  cases hint : takeInteger (takeSign s).2 with
  | none => simp [hint] at h
  | some integer =>
    simp only [hint, Option.some.injEq] at h
    subst h
    have hsign := takeSign_units s
    have hinteger := takeInteger_units hint
    have hfraction := takeFraction_units integer.2
    have hexponent := takeExponent_units (takeFraction integer.2).2
    intro u hu
    simp only [List.mem_append] at hu
    rcases hu with ((hu | hu) | hu) | hu
    · exact hsign u hu
    · exact hinteger u hu
    · exact hfraction u hu
    · exact hexponent u hu

theorem numeral_head {s : Str} {p : Str × Str} (h : numeral s = some p) :
    ∃ u rest, s = u :: rest ∧ (u = unit '-' ∨ isDigit u = true) := by
  cases s with
  | nil => simp [numeral, takeSign, takeInteger] at h
  | cons u rest =>
    refine ⟨u, rest, rfl, ?_⟩
    by_cases hu : u = unit '-'
    · exact .inl hu
    · right
      rw [numeral, takeSign, if_neg hu] at h
      by_contra hdigit
      have hzero : u ≠ unit '0' := by
        rintro rfl
        exact hdigit (by decide)
      simp [takeInteger, hzero, hdigit] at h

theorem digit_ink {u : UInt16} (hu : isDigit u = true) : isWhiteSpace u = false := by
  simp only [isDigit, Bool.and_eq_true, decide_eq_true_eq] at hu
  have hlow : 48 ≤ u.toNat := hu.1
  have hhigh : u.toNat ≤ 57 := hu.2
  have hall : ∀ m, m < 10 → isWhiteSpace (UInt16.ofNat (48 + m)) = false := by decide
  have h := hall (u.toNat - 48) (by omega)
  rwa [Nat.add_sub_cancel' hlow, UInt16.ofNat_toNat] at h

theorem isNumberUnit_plain {u : UInt16} (h : isNumberUnit u = true) : isSurrogate u = false := by
  rw [Bool.eq_false_iff, ne_eq, isSurrogate_iff]
  simp only [isNumberUnit, isDigit, Bool.or_eq_true, Bool.and_eq_true, decide_eq_true_eq,
    beq_iff_eq, UInt16.le_iff_toNat_le] at h
  have h57 : (57 : UInt16).toNat = 57 := rfl
  rcases h with (((((h | rfl) | rfl) | rfl) | rfl) | rfl)
  · omega
  · decide
  · decide
  · decide
  · decide
  · decide

end Terminay.Script
