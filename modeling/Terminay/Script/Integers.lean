import Terminay.Script.Literals

/-!
# The integers as an engine's numbers

An engine whose numbers are the integers, enough to run a command that carries
no fraction. Letters fold case as in ASCII.
-/

namespace Terminay.Script

def lowerUnit (u : UInt16) : UInt16 := if 65 ≤ u ∧ u ≤ 90 then u + 32 else u

def printInt : ℤ → Str
  | .ofNat n => natText n
  | .negSucc n => unit '-' :: natText (n + 1)

def readInt (s : Str) : Numeric ℤ :=
  match trim s with
  | [] => .finite 0
  | u :: rest =>
    if u = unit '-' ∧ rest ≠ [] ∧ rest.all isDigit then .finite (-(digitsValue rest : ℤ))
    else if (u :: rest).all isDigit then .finite (digitsValue (u :: rest) : ℤ)
    else .nan

instance integers : Engine ℤ where
  decEq := inferInstance
  value n := n
  literal q := q.num / q.den
  print := printInt
  read := readInt
  toLowerCase s := s.map lowerUnit

theorem digitsValue_append (s : Str) (u : UInt16) :
    digitsValue (s ++ [u]) = 10 * digitsValue s + (u.toNat - 48) := by
  rw [digitsValue, digitsValue, List.foldl_append, List.foldl_cons, List.foldl_nil]

theorem natText_small {n : ℕ} (hn : n < 10) : natText n = [UInt16.ofNat (48 + n)] := by
  have hall : ∀ m, m < 10 → natText m = [UInt16.ofNat (48 + m)] := by decide
  exact hall n hn

theorem natText_step {n : ℕ} (hn : 10 ≤ n) :
    natText n = natText (n / 10) ++ [UInt16.ofNat (48 + n % 10)] := by
  have hlast := natText_small (n := n % 10) (by omega)
  rw [natText, Nat.toDigits_of_base_le (by decide) hn, List.map_append]
  rw [natText, Nat.toDigits_of_lt_base (by omega)] at hlast
  rw [natText, List.map_singleton]
  rw [List.map_singleton] at hlast
  rw [hlast]

/-- The decimal text of a number: digits only, no leading zero, and its value. -/
structure IsDecimal (s : Str) (n : ℕ) : Prop where
  digits : ∀ u ∈ s, isDigit u = true
  leading : s.head? = some (unit '0') → n = 0 ∧ s = [unit '0']
  nonempty : s ≠ []
  value : digitsValue s = n

theorem digit_small {n : ℕ} (hn : n < 10) :
    isDigit (UInt16.ofNat (48 + n)) = true ∧ (UInt16.ofNat (48 + n)).toNat = 48 + n := by
  have hall : ∀ m, m < 10 →
      isDigit (UInt16.ofNat (48 + m)) = true ∧ (UInt16.ofNat (48 + m)).toNat = 48 + m := by decide
  exact hall n hn

theorem natText_decimal (n : ℕ) : IsDecimal (natText n) n := by
  induction n using Nat.strongRecOn with
  | ind n ih =>
    by_cases hn : n < 10
    · obtain ⟨hdigit, hvalue⟩ := digit_small hn
      rw [natText_small hn]
      refine ⟨by simpa using hdigit, fun hzero => ?_, by simp, ?_⟩
      · have hunit := congrArg UInt16.toNat (Option.some.inj hzero)
        have h48 : (unit '0').toNat = 48 := rfl
        have hn0 : n = 0 := by omega
        subst hn0
        exact ⟨rfl, rfl⟩
      · simp only [digitsValue, List.foldl_cons, List.foldl_nil, hvalue]
        omega
    · have hprev := ih (n / 10) (by omega)
      have hlast := digit_small (n := n % 10) (by omega)
      have hstep := natText_step (n := n) (by omega)
      refine ⟨?_, ?_, ?_, ?_⟩
      · intro u hu
        rw [hstep] at hu
        rcases List.mem_append.mp hu with hu | hu
        · exact hprev.digits u hu
        · rw [List.mem_singleton.mp hu]
          exact hlast.1
      · intro hzero
        rw [hstep, List.head?_append_of_ne_nil _ hprev.nonempty] at hzero
        have hten := (hprev.leading hzero).1
        omega
      · rw [hstep]
        simp
      · rw [hstep, digitsValue_append, hprev.value, hlast.2]
        omega

theorem takeDigits_digits {s : Str} (hs : ∀ u ∈ s, isDigit u = true) : takeDigits s = (s, []) := by
  induction s with
  | nil => rfl
  | cons u s ih =>
    rw [takeDigits, if_pos (hs u List.mem_cons_self), ih fun v hv => hs v (List.mem_cons_of_mem u hv)]

theorem takeInteger_decimal {s : Str} {n : ℕ} (h : IsDecimal s n) : takeInteger s = some (s, []) := by
  cases s with
  | nil => exact absurd rfl h.nonempty
  | cons u s =>
    by_cases hzero : u = unit '0'
    · have hs := (h.leading (by rw [hzero]; rfl)).2
      rw [hs]
      rfl
    · have hrest := takeDigits_digits fun v hv => h.digits v (List.mem_cons_of_mem u hv)
      rw [takeInteger, if_neg hzero, if_pos (h.digits u List.mem_cons_self), hrest]

theorem decimal_head {s : Str} {n : ℕ} (h : IsDecimal s n) :
    ∃ u rest, s = u :: rest ∧ isDigit u = true ∧ u ≠ unit '-' := by
  cases s with
  | nil => exact absurd rfl h.nonempty
  | cons u rest =>
    have hu := h.digits u List.mem_cons_self
    refine ⟨u, rest, rfl, hu, ?_⟩
    rintro rfl
    revert hu
    decide

theorem numeral_printInt (z : ℤ) : numeral (printInt z) = some (printInt z, []) := by
  cases z with
  | ofNat n =>
    have hd := natText_decimal n
    obtain ⟨u, rest, hs, -, hu⟩ := decimal_head hd
    have hsign : takeSign (natText n) = ([], natText n) := by rw [hs, takeSign, if_neg hu]
    simp [printInt, numeral, hsign, takeInteger_decimal hd, takeFraction, takeExponent]
  | negSucc n =>
    have hd := natText_decimal (n + 1)
    simp [printInt, numeral, takeSign, takeInteger_decimal hd, takeFraction, takeExponent]

theorem trimStart_ink {s : Str} (hs : ∀ u ∈ s, isWhiteSpace u = false) : trimStart s = s := by
  cases s with
  | nil => rfl
  | cons u s => rw [trimStart, List.dropWhile_cons_of_neg (by simp [hs u List.mem_cons_self])]

theorem trim_ink {s : Str} (hs : ∀ u ∈ s, isWhiteSpace u = false) : trim s = s := by
  rw [trim, trimStart_ink hs, trimEnd, trimStart_ink fun u hu => hs u (List.mem_reverse.mp hu),
    List.reverse_reverse]

theorem readInt_printInt (z : ℤ) : readInt (printInt z) = .finite z := by
  cases z with
  | ofNat n =>
    have hd := natText_decimal n
    have htrim : trim (natText n) = natText n := trim_ink fun u hu => digit_ink (hd.digits u hu)
    obtain ⟨u, rest, hs, -, hu⟩ := decimal_head hd
    have hall : (u :: rest).all isDigit = true := by
      rw [← hs]
      exact List.all_eq_true.mpr hd.digits
    have hvalue := hd.value
    rw [hs] at hvalue
    rw [printInt, readInt, htrim, hs]
    simp only [hu, false_and, if_false, hall, if_true, hvalue]
    rfl
  | negSucc n =>
    have hd := natText_decimal (n + 1)
    have hink : ∀ u ∈ unit '-' :: natText (n + 1), isWhiteSpace u = false := by
      intro u hu
      rcases List.mem_cons.mp hu with rfl | hu
      · decide
      · exact digit_ink (hd.digits u hu)
    have hall : (natText (n + 1)).all isDigit = true := List.all_eq_true.mpr hd.digits
    rw [printInt, readInt, trim_ink hink]
    simp only [hd.nonempty, hall, hd.value, ne_eq, not_false_eq_true, and_self, if_true]
    rfl

instance lawfulIntegers : LawfulEngine ℤ where
  print_numeral := numeral_printInt
  read_print := readInt_printInt

end Terminay.Script
