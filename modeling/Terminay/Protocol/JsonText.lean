import Terminay.Protocol.JsonDecoding
import Terminay.Script.JsonParse

/-!
# `JSON.parse` reads what `JSON.stringify` writes

The text of a value is well-formed UTF-16, so it survives the encoding as bytes too.
-/

namespace Terminay.Protocol
open Script

variable {ν μ : Type}

theorem mapItems_map (f : ν → μ) (items : List (Json ν)) :
    mapItems f items = items.map (Json.mapNumbers f) := by
  induction items with
  | nil => rfl
  | cons a as ih => rw [mapItems, ih, List.map_cons]

theorem mapFields_map (f : ν → μ) (fields : List (Str × Json ν)) :
    mapFields f fields = fields.map fun e => (e.1, e.2.mapNumbers f) := by
  induction fields with
  | nil => rfl
  | cons e es ih => rw [mapFields, ih, List.map_cons]

section Tokens

variable {u v : UInt16}

theorem skipSpace_ink (hu : isJsonSpace u = false) (s : Str) : skipSpace (u :: s) = u :: s := by
  rw [skipSpace, List.dropWhile_cons_of_neg (by simp [hu])]

theorem token_here (hu : isJsonSpace u = false) (s : Str) : token u (u :: s) = some s := by
  rw [token, skipSpace_ink hu]
  exact if_pos rfl

theorem token_other (hv : isJsonSpace v = false) (hne : v ≠ u) (s : Str) :
    token u (v :: s) = none := by
  rw [token, skipSpace_ink hv]
  exact if_neg hne

theorem jsonSpace_white (hu : isWhiteSpace u = false) : isJsonSpace u = false := by
  simp only [isWhiteSpace, isJsonSpace, Bool.or_eq_false_iff] at hu ⊢
  have hcontrol := hu.1.1.1.1.1.1.1.1.1.1
  have hspace := hu.1.1.1.1.1.1.1.1.1.2
  refine ⟨⟨⟨?_, ?_⟩, ?_⟩, hspace⟩
  all_goals
    refine beq_false_of_ne ?_
    rintro rfl
    revert hcontrol
    decide

theorem readString_quote (s t : Str) :
    readString (quoteBody s ++ unit '"' :: t) = some (s, t) := by
  have h := quoteBody_denotes s
  rw [readString, h.scanned t]
  simp [h.reads]

end Tokens

variable [Engine ν] [LawfulEngine ν]

theorem stringify_opens (j : Json ν) : ∃ u rest, j.stringify = u :: rest ∧ Opens u := by
  cases j with
  | null => exact ⟨_, _, rfl, by decide⟩
  | bool b => cases b <;> exact ⟨_, _, rfl, by decide⟩
  | num n =>
    obtain ⟨u, rest, h, hu⟩ := print_opens n
    refine ⟨u, rest, by rw [Json.stringify, h], ?_⟩
    rcases hu with rfl | hu
    · decide
    · refine ⟨digit_ink hu, ?_, ?_, ?_⟩
      all_goals
        rintro rfl
        revert hu
        decide
  | str s => exact ⟨_, _, rfl, by decide⟩
  | arr items => exact ⟨_, _, by rw [Json.stringify, List.cons_append], by decide⟩
  | obj fields => exact ⟨_, _, by rw [Json.stringify, List.cons_append], by decide⟩

theorem skipSpace_stringify (j : Json ν) (rest : Str) :
    skipSpace (j.stringify ++ rest) = j.stringify ++ rest := by
  obtain ⟨u, tail, h, hu⟩ := stringify_opens j
  rw [h, List.cons_append, skipSpace_ink (jsonSpace_white hu.1)]

def ReadsText (read : Str → Option (Read ν)) (a : Json ν) : Prop :=
  ∀ rest, Delimited rest → read (a.stringify ++ rest) = some (a.parsed, rest)

omit [LawfulEngine ν] in
theorem stringifyItems_length (items : List (Json ν)) :
    items.length ≤ (stringifyItems items).length + 1 := by
  induction items with
  | nil => simp
  | cons a as ih =>
    rcases as with _ | ⟨b, bs⟩
    · simp
    · rw [stringifyItems, List.length_append]
      simp only [List.length_cons] at ih ⊢
      omega

theorem stringifyItems_opens (a : Json ν) (as : List (Json ν)) :
    ∃ u rest, stringifyItems (a :: as) = u :: rest ∧ Opens u := by
  obtain ⟨u, tail, h, hu⟩ := stringify_opens a
  rcases as with _ | ⟨b, bs⟩
  · exact ⟨u, tail, by rw [stringifyItems, h], hu⟩
  · exact ⟨u, _, by rw [stringifyItems, h, List.cons_append], hu⟩

section Levels

variable {read : Str → Option (Read ν)}

theorem readItems_reads (items : List (Json ν)) (hitems : ∀ a ∈ items, ReadsText read a)
    (hne : items ≠ []) (fuel : ℕ) (hfuel : items.length ≤ fuel)
    (result : List (Json (Numeric ν))) (rest : Str) :
    readItems read fuel result (stringifyItems items ++ unit ']' :: rest) =
      some (.arr (result ++ items.map Json.parsed), rest) := by
  induction items generalizing fuel result with
  | nil => exact absurd rfl hne
  | cons a as ih =>
    obtain ⟨fuel, rfl⟩ : ∃ m, fuel = m + 1 := ⟨fuel - 1, by simp at hfuel; omega⟩
    have ha := hitems a List.mem_cons_self
    rcases as with _ | ⟨b, bs⟩
    · have hread := ha (unit ']' :: rest) (delimited_cons (by simp) rest)
      rw [stringifyItems, readItems, skipSpace_stringify, hread]
      dsimp only
      rw [token_here (by decide)]
      rfl
    · have hread := ha (unit ',' :: (stringifyItems (b :: bs) ++ unit ']' :: rest))
        (delimited_cons (by simp) _)
      have htail := ih (fun c hc => hitems c (List.mem_cons_of_mem a hc)) (List.cons_ne_nil b bs)
        fuel (by simpa using hfuel) (result ++ [a.parsed])
      rw [stringifyItems, List.append_assoc, List.cons_append, readItems, skipSpace_stringify, hread]
      dsimp only
      rw [token_other (by decide) (by decide), token_here (by decide)]
      dsimp only [Option.bind_some]
      rw [htail, List.append_assoc]
      rfl

theorem readArray_reads (items : List (Json ν)) (hitems : ∀ a ∈ items, ReadsText read a)
    (rest : Str) : readArray read (stringifyItems items ++ unit ']' :: rest) =
      some (.arr (items.map Json.parsed), rest) := by
  rcases items with _ | ⟨a, as⟩
  · rw [stringifyItems, List.nil_append, readArray, token_here (by decide)]
    rfl
  · have hlength := stringifyItems_length (a :: as)
    have hread := readItems_reads (a :: as) hitems (List.cons_ne_nil a as)
      ((stringifyItems (a :: as) ++ unit ']' :: rest).length + 1)
      (by rw [List.length_append]; omega) [] rest
    obtain ⟨u, tail, h, hu⟩ := stringifyItems_opens a as
    rw [List.nil_append, h, List.cons_append] at hread
    rw [readArray, h, List.cons_append, token_other (jsonSpace_white hu.1) hu.2.1]
    exact hread

def fieldText (e : Str × Json ν) : Str := quote e.1 ++ unit ':' :: e.2.stringify

section

omit [LawfulEngine ν]

theorem stringifyFields_cons (e : Str × Json ν) (e' : Str × Json ν) (es : List (Str × Json ν)) :
    stringifyFields (e :: e' :: es) = fieldText e ++ unit ',' :: stringifyFields (e' :: es) := by
  rw [stringifyFields, fieldText]

theorem stringifyFields_opens (e : Str × Json ν) (es : List (Str × Json ν)) :
    ∃ rest, stringifyFields (e :: es) = unit '"' :: rest := by
  rcases es with _ | ⟨e', es⟩
  · exact ⟨_, by rw [stringifyFields, quote_cons]⟩
  · exact ⟨_, by rw [stringifyFields_cons, fieldText, List.append_assoc, quote_cons]⟩

theorem stringifyFields_length (fields : List (Str × Json ν)) :
    fields.length ≤ (stringifyFields fields).length + 1 := by
  induction fields with
  | nil => simp
  | cons e es ih =>
    rcases es with _ | ⟨e', es⟩
    · simp
    · rw [stringifyFields_cons, List.length_append]
      simp only [List.length_cons] at ih ⊢
      omega

end

theorem readMember_reads (e : Str × Json ν) (he : ReadsText read e.2) (rest : Str)
    (hrest : Delimited rest) :
    readMember read (fieldText e ++ rest) = some ((e.1, e.2.parsed), rest) := by
  rw [fieldText, List.append_assoc, quote_cons, readMember, token_here (by decide)]
  dsimp only [bind, Option.bind_some]
  rw [readString_quote]
  dsimp only [Option.bind_some]
  rw [List.cons_append, token_here (by decide)]
  dsimp only [Option.bind_some]
  rw [skipSpace_stringify, he rest hrest]
  rfl

omit [Engine ν] [LawfulEngine ν] in
theorem setField_fresh {fields : List (Str × Json (Numeric ν))} {key : Str}
    (hfresh : key ∉ fields.map (·.1)) (value : Json (Numeric ν)) :
    setField fields key value = fields ++ [(key, value)] := if_neg hfresh

theorem readMembers_reads (es : List (Str × Json ν)) (hes : ∀ e ∈ es, ReadsText read e.2)
    (hne : es ≠ []) (fuel : ℕ) (hfuel : es.length ≤ fuel) (fields : List (Str × Json (Numeric ν)))
    (hkeys : (fields.map (·.1) ++ es.map (·.1)).Nodup) (rest : Str) :
    readMembers read fuel fields (stringifyFields es ++ unit '\x7d' :: rest) =
      some (.obj (fields ++ es.map fun e => (e.1, e.2.parsed)), rest) := by
  induction es generalizing fuel fields with
  | nil => exact absurd rfl hne
  | cons e es ih =>
    obtain ⟨fuel, rfl⟩ : ∃ m, fuel = m + 1 := ⟨fuel - 1, by simp at hfuel; omega⟩
    have he := hes e List.mem_cons_self
    have hfresh : e.1 ∉ fields.map (·.1) := by
      intro hmem
      have hdisjoint := (List.nodup_append.mp hkeys).2.2 e.1 hmem e.1 (by simp)
      exact hdisjoint rfl
    rcases es with _ | ⟨e', es⟩
    · have hread := readMember_reads e he (unit '\x7d' :: rest) (delimited_cons (by simp) rest)
      have htext : stringifyFields [e] = fieldText e := by rw [stringifyFields, fieldText]
      rw [htext, readMembers, hread]
      dsimp only
      rw [token_here (by decide), setField_fresh hfresh]
      rfl
    · have hread := readMember_reads e he
        (unit ',' :: (stringifyFields (e' :: es) ++ unit '\x7d' :: rest))
        (delimited_cons (by simp) _)
      have htail := ih (fun c hc => hes c (List.mem_cons_of_mem e hc)) (List.cons_ne_nil e' es)
        fuel (by simpa using hfuel) (fields ++ [(e.1, e.2.parsed)]) (by simpa using hkeys)
      rw [stringifyFields_cons, List.append_assoc, List.cons_append, readMembers, hread]
      dsimp only
      rw [token_other (by decide) (by decide), token_here (by decide), setField_fresh hfresh]
      dsimp only [Option.bind_some]
      rw [htail, List.append_assoc]
      rfl

theorem readObject_reads (es : List (Str × Json ν)) (hes : ∀ e ∈ es, ReadsText read e.2)
    (hkeys : (es.map (·.1)).Nodup) (rest : Str) :
    readObject read (stringifyFields es ++ unit '\x7d' :: rest) =
      some (.obj (es.map fun e => (e.1, e.2.parsed)), rest) := by
  rcases es with _ | ⟨e, es⟩
  · rw [stringifyFields, List.nil_append, readObject, token_here (by decide)]
    rfl
  · have hlength := stringifyFields_length (e :: es)
    have hread := readMembers_reads (e :: es) hes (List.cons_ne_nil e es)
      ((stringifyFields (e :: es) ++ unit '\x7d' :: rest).length + 1)
      (by rw [List.length_append]; omega) [] hkeys rest
    obtain ⟨tail, h⟩ := stringifyFields_opens e es
    rw [List.nil_append, h, List.cons_append] at hread
    rw [readObject, h, List.cons_append, token_other (by decide) (by decide)]
    exact hread

end Levels

section Lengths

omit [LawfulEngine ν]

theorem length_item {items : List (Json ν)} {a : Json ν} (ha : a ∈ items) :
    a.stringify.length ≤ (stringifyItems items).length := by
  induction items with
  | nil => cases ha
  | cons b bs ih =>
    rcases bs with _ | ⟨c, cs⟩
    · rw [List.mem_singleton.mp ha, stringifyItems]
    · rw [stringifyItems, List.length_append, List.length_cons]
      rcases List.mem_cons.mp ha with rfl | ha
      · omega
      · have hlength := ih ha
        omega

theorem length_field {fields : List (Str × Json ν)} {e : Str × Json ν} (he : e ∈ fields) :
    e.2.stringify.length ≤ (stringifyFields fields).length := by
  induction fields with
  | nil => cases he
  | cons d ds ih =>
    rcases ds with _ | ⟨c, cs⟩
    · rw [List.mem_singleton.mp he, stringifyFields, List.length_append, List.length_cons]
      omega
    · rw [stringifyFields_cons, fieldText, List.length_append, List.length_append,
        List.length_cons]
      rcases List.mem_cons.mp he with rfl | he
      · omega
      · have hlength := ih he
        rw [List.length_cons]
        omega

end Lengths

omit [Engine ν] [LawfulEngine ν] in
theorem readWord_digit {u : UInt16} (hu : u = unit '-' ∨ isDigit u = true) (rest : Str) :
    (readWord (u :: rest) : Option (Read ν)) = none := by
  simp [readWord, digit_no_word hu rest]

theorem readNumber_print (n : ν) {rest : Str} (hrest : Delimited rest) :
    readNumber (Engine.print n ++ rest) = some (.num (.finite n), rest) := by
  have h := numeral_append (LawfulEngine.print_numeral n) hrest
  rw [List.nil_append] at h
  rw [readNumber, h, Option.map_some, LawfulEngine.read_print]

omit [LawfulEngine ν] in
theorem readValue_word (levels : ℕ) {word : Str} {u : UInt16} {tail rest : Str}
    {j : Json (Numeric ν)} (hword : word = u :: tail)
    (hu : u ≠ unit '\x7b' ∧ u ≠ unit '[' ∧ u ≠ unit '"')
    (hread : readWord (word ++ rest) = some (j, rest)) :
    readValue (levels + 1) (word ++ rest) = some (j, rest) := by
  subst hword
  rw [List.cons_append] at hread ⊢
  rw [readValue, if_neg hu.1, if_neg hu.2.1, if_neg hu.2.2, hread]
  rfl

theorem readValue_stringify (j : Json ν) (hdistinct : distinctKeys j = true) (levels : ℕ)
    (hlevels : j.stringify.length ≤ levels) : ReadsText (readValue levels) j := by
  obtain ⟨u, tail, hopens, -⟩ := stringify_opens j
  obtain ⟨levels, rfl⟩ : ∃ m, levels = m + 1 := ⟨levels - 1, by simp [hopens] at hlevels; omega⟩
  induction j using Json.induct generalizing levels u tail with
  | scalar j harr hobj =>
    intro rest hrest
    cases j with
    | arr items => exact absurd rfl (harr items)
    | obj fields => exact absurd rfl (hobj fields)
    | null => exact readValue_word levels (by rfl) (by decide) (by rfl)
    | bool b =>
      cases b with
      | false => exact readValue_word levels (by rfl) (by decide) (by rfl)
      | true => exact readValue_word levels (by rfl) (by decide) (by rfl)
    | num n =>
      obtain ⟨v, more, hprint, hv⟩ := print_opens n
      have hne : v ≠ unit '\x7b' ∧ v ≠ unit '[' ∧ v ≠ unit '"' := by
        rcases hv with rfl | hv
        · decide
        · refine ⟨?_, ?_, ?_⟩
          all_goals
            rintro rfl
            revert hv
            decide
      have hnumber := readNumber_print n hrest
      rw [hprint, List.cons_append] at hnumber
      rw [Json.stringify, hprint, List.cons_append, readValue, if_neg hne.1, if_neg hne.2.1,
        if_neg hne.2.2, readWord_digit hv, hnumber]
      rfl
    | str s =>
      rw [Json.stringify, quote_cons, readValue, if_neg (by decide), if_neg (by decide),
        if_pos rfl, readString_quote]
      rfl
  | arr items ih =>
    rw [distinct_arr] at hdistinct
    rw [Json.stringify, List.cons_append, List.length_cons, List.length_append] at hlevels
    have hitems : ∀ a ∈ items, ReadsText (readValue levels) a := by
      intro a ha
      obtain ⟨v, more, hv, -⟩ := stringify_opens a
      have hlength := length_item ha
      obtain ⟨levels, rfl⟩ : ∃ m, levels = m + 1 := ⟨levels - 1, by simp [hv] at hlength; omega⟩
      exact ih a ha (hdistinct a ha) v more hv levels (by omega)
    intro rest hrest
    have harray := readArray_reads items hitems rest
    rw [Json.stringify, List.append_assoc, List.cons_append, List.singleton_append, readValue,
      if_neg (by decide), if_pos rfl, harray, Json.parsed, Json.mapNumbers, mapItems_map]
    rfl
  | obj fields ih =>
    rw [distinct_obj] at hdistinct
    rw [Json.stringify, List.cons_append, List.length_cons, List.length_append] at hlevels
    have hfields : ∀ e ∈ fields, ReadsText (readValue levels) e.2 := by
      intro e he
      obtain ⟨v, more, hv, -⟩ := stringify_opens e.2
      have hlength := length_field he
      obtain ⟨levels, rfl⟩ : ∃ m, levels = m + 1 := ⟨levels - 1, by simp [hv] at hlength; omega⟩
      exact ih e he (hdistinct.2 e he) v more hv levels (by omega)
    intro rest hrest
    have hobject := readObject_reads fields hfields hdistinct.1 rest
    rw [Json.stringify, List.append_assoc, List.cons_append, List.singleton_append, readValue,
      if_pos rfl, hobject, Json.parsed, Json.mapNumbers, mapFields_map]
    rfl

theorem parse_stringify {j : Json ν} (hdistinct : distinctKeys j = true) :
    Json.parse j.stringify = some j.parsed := by
  have hread := readValue_stringify j hdistinct j.stringify.length le_rfl [] delimited_nil
  have hskip := skipSpace_stringify j []
  rw [List.append_nil] at hread hskip
  rw [Json.parse, hskip, hread]
  rfl

/-! ## As bytes -/

omit [LawfulEngine ν] in
theorem stringifyItems_paired {items : List (Json ν)} (h : ∀ a ∈ items, Paired a.stringify) :
    Paired (stringifyItems items) := by
  induction items with
  | nil => exact Paired.nil
  | cons a as ih =>
    rcases as with _ | ⟨b, bs⟩
    · exact h a List.mem_cons_self
    · have hrest := ih fun c hc => h c (List.mem_cons_of_mem a hc)
      exact (h a List.mem_cons_self).append (Paired.cons (by decide) hrest)

omit [LawfulEngine ν] in
theorem stringifyFields_paired {fields : List (Str × Json ν)}
    (h : ∀ e ∈ fields, Paired e.2.stringify) : Paired (stringifyFields fields) := by
  induction fields with
  | nil => exact Paired.nil
  | cons e es ih =>
    have he : Paired (fieldText e) :=
      (quote_paired e.1).append (Paired.cons (by decide) (h e List.mem_cons_self))
    rcases es with _ | ⟨e', es⟩
    · rwa [show stringifyFields [e] = fieldText e by rw [stringifyFields, fieldText]]
    · have hrest := ih fun c hc => h c (List.mem_cons_of_mem e hc)
      rw [stringifyFields_cons]
      exact he.append (Paired.cons (by decide) hrest)

theorem stringify_paired (j : Json ν) : Paired j.stringify := by
  induction j using Json.induct with
  | scalar j harr hobj =>
    have hsame : j.stringify = serializeValidatedJson j := by
      cases j with
      | arr items => exact absurd rfl (harr items)
      | obj fields => exact absurd rfl (hobj fields)
      | bool b => cases b <;> rfl
      | _ => rfl
    rw [hsame]
    exact serialize_paired j
  | arr items ih =>
    rw [Json.stringify]
    exact (Paired.cons (by decide) (stringifyItems_paired ih)).append (Paired.one (by decide))
  | obj fields ih =>
    rw [Json.stringify]
    exact (Paired.cons (by decide) (stringifyFields_paired ih)).append (Paired.one (by decide))

theorem decode_stringify (j : Json ν) :
    textDecode (textEncode j.stringify) = some j.stringify := by
  obtain ⟨u, rest, h, hu⟩ := stringify_opens j
  refine textDecode_textEncode (stringify_paired j) ?_
  rw [h, List.head?_cons]
  exact fun hmark => hu.2.2.2 (Option.some.inj hmark)

end Terminay.Protocol
