import Terminay.Protocol.CanonicalJson

/-!
# What the decoder makes of the encoder's text

The parser reads a serialized value back with every object's fields in key order and without a
field named `__proto__`.
-/

namespace Terminay.Protocol
open Script Workspace Outcome Lists

variable {ν : Type} [Engine ν]

example : joinCommas [js "1", js "2"] = js "1,2" := by decide +kernel

section

omit [Engine ν]

theorem assertItems_ok (items : List (Json ν)) (depth : ℕ) :
    assertItems items depth = .ok () ↔ ∀ a ∈ items, assertJsonValue a depth = .ok () := by
  induction items with
  | nil => simp [assertItems]
  | cons a as ih =>
    simp only [assertItems, bind_ok, ih, List.forall_mem_cons]
    exact ⟨fun ⟨_, ha, has⟩ => ⟨ha, has⟩, fun ⟨ha, has⟩ => ⟨(), ha, has⟩⟩

theorem assertFields_ok (fields : List (Str × Json ν)) (depth : ℕ) :
    assertFields fields depth = .ok () ↔ ∀ e ∈ fields, assertJsonValue e.2 depth = .ok () := by
  induction fields with
  | nil => simp [assertFields]
  | cons e es ih =>
    simp only [assertFields, bind_ok, ih, List.forall_mem_cons]
    exact ⟨fun ⟨_, ha, has⟩ => ⟨ha, has⟩, fun ⟨ha, has⟩ => ⟨(), ha, has⟩⟩

theorem assert_arr (items : List (Json ν)) (depth : ℕ) :
    assertJsonValue (.arr items) depth = .ok () ↔
      depth ≤ 32 ∧ ∀ a ∈ items, assertJsonValue a (depth + 1) = .ok () := by
  rw [assertJsonValue, bind_ok, assertItems_ok]
  simp only [refuseIf_ok, Nat.not_lt, exists_const]

theorem assert_obj (fields : List (Str × Json ν)) (depth : ℕ) :
    assertJsonValue (.obj fields) depth = .ok () ↔
      depth ≤ 32 ∧ ∀ e ∈ fields, assertJsonValue e.2 (depth + 1) = .ok () := by
  rw [assertJsonValue, bind_ok, assertFields_ok]
  simp only [refuseIf_ok, Nat.not_lt, exists_const]

theorem assert_depth {j : Json ν} {depth : ℕ} (h : assertJsonValue j depth = .ok ()) : depth ≤ 32 := by
  cases j with
  | arr items => exact ((assert_arr items depth).mp h).1
  | obj fields => exact ((assert_obj fields depth).mp h).1
  | _ => simpa [assertJsonValue] using h

end

theorem serializeItems_map (items : List (Json ν)) :
    serializeItems items = items.map serializeValidatedJson := by
  induction items with
  | nil => rfl
  | cons a as ih => rw [serializeItems, ih, List.map_cons]

theorem serializeFields_map (fields : List (Str × Json ν)) :
    serializeFields fields = fields.map fun e => (e.1, serializeValidatedJson e.2) := by
  induction fields with
  | nil => rfl
  | cons e es ih => rw [serializeFields, ih, List.map_cons]

theorem serialize_arr (items : List (Json ν)) : serializeValidatedJson (.arr items) =
    unit '[' :: joinCommas (items.map serializeValidatedJson) ++ [unit ']'] := by
  rw [serializeValidatedJson, serializeItems_map]

def memberText (e : Str × Json ν) : Str := member (e.1, serializeValidatedJson e.2)

theorem serialize_obj (fields : List (Str × Json ν)) : serializeValidatedJson (.obj fields) =
    unit '\x7b' :: joinCommas ((sortByKey fields).map memberText) ++ [unit '\x7d'] := by
  rw [serializeValidatedJson, serializeFields_map, sortByKey_map, List.map_map]
  rfl

section

omit [Engine ν]

theorem distinct_arr (items : List (Json ν)) :
    distinctKeys (.arr items) = true ↔ ∀ a ∈ items, distinctKeys a = true := by
  rw [distinctKeys]
  induction items with
  | nil => simp [distinctItems]
  | cons a as ih => simp [distinctItems, ih]

theorem distinct_obj (fields : List (Str × Json ν)) : distinctKeys (.obj fields) = true ↔
    (fields.map (·.1)).Nodup ∧ ∀ e ∈ fields, distinctKeys e.2 = true := by
  have hfields : distinctFields fields = true ↔ ∀ e ∈ fields, distinctKeys e.2 = true := by
    induction fields with
    | nil => simp [distinctFields]
    | cons e es ih => simp [distinctFields, ih]
  rw [distinctKeys, Bool.and_eq_true, decide_eq_true_eq, hfields]

theorem ownsProto_arr (items : List (Json ν)) :
    ownsProto (.arr items) = true ↔ ∃ a ∈ items, ownsProto a = true := by
  rw [ownsProto]
  induction items with
  | nil => simp [itemsOwnProto]
  | cons a as ih => simp [itemsOwnProto, ih]

theorem ownsProto_obj (fields : List (Str × Json ν)) : ownsProto (.obj fields) = true ↔
    ∃ e ∈ fields, ownField e.1 = false ∨ ownsProto e.2 = true := by
  rw [ownsProto]
  induction fields with
  | nil => simp [fieldsOwnProto]
  | cons e es ih => simp [fieldsOwnProto, ih, Bool.or_eq_true, or_assoc]

end

theorem alike_arr (as bs : List (Json ν)) : alike (.arr as) (.arr bs) = true ↔
    List.Forall₂ (fun a b => alike a b = true) as bs := by
  rw [alike]
  induction as generalizing bs with
  | nil => cases bs <;> simp [alikeItems]
  | cons a as ih => cases bs <;> simp [alikeItems, ih]

theorem alike_obj (as bs : List (Str × Json ν)) : alike (.obj as) (.obj bs) = true ↔
    as.length = bs.length ∧
      ∀ e ∈ as, ∃ b, (Table.ofEntries bs)[e.1]? = some b ∧ alike e.2 b = true := by
  have hfields : ∀ t : Fields ν, alikeFields as t = true ↔
      ∀ e ∈ as, ∃ b, t[e.1]? = some b ∧ alike e.2 b = true := by
    intro t
    induction as with
    | nil => simp [alikeFields]
    | cons e es ih => simp [alikeFields, ih, Option.any_eq_true]
  rw [alike, Bool.and_eq_true, beq_iff_eq, hfields]

mutual
def rebuilt : Json ν → Json ν
  | .arr items => .arr (rebuiltItems items)
  | .obj fields => .obj ((sortByKey (rebuiltFields fields)).filter fun e => ownField e.1)
  | .null => .null
  | .bool b => .bool b
  | .num n => .num n
  | .str s => .str s
def rebuiltItems : List (Json ν) → List (Json ν)
  | [] => []
  | a :: as => rebuilt a :: rebuiltItems as
def rebuiltFields : List (Str × Json ν) → List (Str × Json ν)
  | [] => []
  | (k, a) :: es => (k, rebuilt a) :: rebuiltFields es
end

section

omit [Engine ν]

theorem rebuilt_arr (items : List (Json ν)) : rebuilt (.arr items) = .arr (items.map rebuilt) := by
  rw [rebuilt]
  congr 1
  induction items with
  | nil => rfl
  | cons a as ih => rw [rebuiltItems, ih, List.map_cons]

theorem rebuilt_obj (fields : List (Str × Json ν)) : rebuilt (.obj fields) =
    .obj (((sortByKey fields).map fun e => (e.1, rebuilt e.2)).filter fun e => ownField e.1) := by
  have hfields : rebuiltFields fields = fields.map fun e => (e.1, rebuilt e.2) := by
    induction fields with
    | nil => rfl
    | cons e es ih => rw [rebuiltFields, ih, List.map_cons]
  rw [rebuilt, hfields, sortByKey_map]

theorem rebuilt_scalar {j : Json ν} (harr : ∀ items, j ≠ .arr items)
    (hobj : ∀ fields, j ≠ .obj fields) : rebuilt j = j := by
  cases j with
  | arr items => exact absurd rfl (harr items)
  | obj fields => exact absurd rfl (hobj fields)
  | _ => rfl

theorem rebuilt_asserted (j : Json ν) (depth : ℕ) (h : assertJsonValue j depth = .ok ()) :
    assertJsonValue (rebuilt j) depth = .ok () := by
  induction j using Json.induct generalizing depth with
  | scalar j harr hobj => rwa [rebuilt_scalar harr hobj]
  | arr items ih =>
    rw [rebuilt_arr, assert_arr]
    rw [assert_arr] at h
    refine ⟨h.1, fun a ha => ?_⟩
    obtain ⟨b, hb, rfl⟩ := List.mem_map.mp ha
    exact ih b hb _ (h.2 b hb)
  | obj fields ih =>
    rw [rebuilt_obj, assert_obj]
    rw [assert_obj] at h
    refine ⟨h.1, fun e he => ?_⟩
    obtain ⟨e', he', rfl⟩ := List.mem_map.mp (List.mem_filter.mp he).1
    rw [mem_sortByKey] at he'
    exact ih e' he' _ (h.2 e' he')

end

section Parsing

theorem delimited_nil : Delimited [] := nofun

theorem delimited_cons {u : UInt16} (hu : u = unit ',' ∨ u = unit ']' ∨ u = unit '\x7d') (s : Str) :
    Delimited (u :: s) := by
  intro v hv
  cases hv
  rcases hu with rfl | rfl | rfl <;> decide

theorem ws_ink {u : UInt16} (hu : isWhiteSpace u = false) (s : Str) : ws (u :: s) = u :: s := by
  rw [ws, List.dropWhile_cons_of_neg (by simp [hu])]

def Opens (u : UInt16) : Prop :=
  isWhiteSpace u = false ∧ u ≠ unit ']' ∧ u ≠ unit '\x7d' ∧ u ≠ 0xFEFF

instance : DecidablePred Opens := fun u =>
  inferInstanceAs (Decidable (isWhiteSpace u = false ∧ u ≠ unit ']' ∧ u ≠ unit '\x7d' ∧ u ≠ 0xFEFF))

theorem quote_cons (s t : Str) : quote s ++ t = unit '"' :: (quoteBody s ++ unit '"' :: t) := by
  simp [quote]

theorem parseString_quote (s t : Str) : parseString (quoteBody s ++ unit '"' :: t) = .ok (s, t) := by
  have h := quoteBody_denotes s
  simp only [parseString, bind_ok]
  exact ⟨_, h.scanned t, s, demand_ok.mpr h.reads, rfl⟩

variable [LawfulEngine ν]

theorem print_opens (n : ν) : ∃ u rest, Engine.print n = u :: rest ∧ (u = unit '-' ∨ isDigit u = true) :=
  numeral_head (LawfulEngine.print_numeral n)

theorem serialize_opens (j : Json ν) : ∃ u rest, serializeValidatedJson j = u :: rest ∧ Opens u := by
  cases j with
  | null => exact ⟨_, _, rfl, by decide⟩
  | bool b => cases b <;> exact ⟨_, _, rfl, by decide⟩
  | num n =>
    obtain ⟨u, rest, h, hu⟩ := print_opens n
    refine ⟨u, rest, by rw [serializeValidatedJson, h], ?_⟩
    rcases hu with rfl | hu
    · decide
    · refine ⟨digit_ink hu, ?_, ?_, ?_⟩
      all_goals
        rintro rfl
        revert hu
        decide
  | str s => exact ⟨_, _, rfl, by decide⟩
  | arr items => exact ⟨_, _, serialize_arr items, by decide⟩
  | obj fields => exact ⟨_, _, serialize_obj fields, by decide⟩

theorem ws_serialize (j : Json ν) (rest : Str) :
    ws (serializeValidatedJson j ++ rest) = serializeValidatedJson j ++ rest := by
  obtain ⟨u, tail, h, hu⟩ := serialize_opens j
  rw [h, List.cons_append, ws_ink hu.1]

def ReadsBack (parse : Str → Checked (Parsed ν)) (a : Json ν) : Prop :=
  ∀ rest, Delimited rest → parse (serializeValidatedJson a ++ rest) = .ok (rebuilt a, rest)

theorem joinCommas_length (parts : List Str) (h : ∀ part ∈ parts, part ≠ []) :
    parts.length ≤ (joinCommas parts).length := by
  induction parts with
  | nil => simp
  | cons part parts ih =>
    have hpart : 0 < part.length := List.length_pos_iff.mpr (h part List.mem_cons_self)
    cases parts with
    | nil =>
      simp only [joinCommas, List.length_cons, List.length_nil]
      omega
    | cons next parts =>
      have htail := ih fun p hp => h p (List.mem_cons_of_mem part hp)
      simp only [joinCommas, List.length_append, List.length_cons] at htail ⊢
      omega

theorem parseItems_reads {parse : Str → Checked (Parsed ν)} (items : List (Json ν))
    (hitems : ∀ a ∈ items, ReadsBack parse a) (hne : items ≠ []) (fuel : ℕ)
    (hfuel : items.length ≤ fuel) (result : List (Json ν)) (rest : Str) :
    parseItems parse fuel result
        (joinCommas (items.map serializeValidatedJson) ++ unit ']' :: rest) =
      .ok (.arr (result ++ items.map rebuilt), rest) := by
  induction items generalizing fuel result with
  | nil => exact absurd rfl hne
  | cons a as ih =>
    obtain ⟨fuel, rfl⟩ : ∃ m, fuel = m + 1 := ⟨fuel - 1, by simp at hfuel; omega⟩
    have ha := hitems a List.mem_cons_self
    have hbracket : ws (unit ']' :: rest) = unit ']' :: rest := ws_ink (by decide) rest
    cases as with
    | nil =>
      simp only [List.map_cons, List.map_nil, joinCommas, parseItems, ws_serialize, bind_ok]
      refine ⟨_, ha _ (delimited_cons (by simp) rest), ?_⟩
      simp only [hbracket, if_true]
    | cons b bs =>
      have hcomma : ∀ s, ws (unit ',' :: s) = unit ',' :: s := ws_ink (by decide)
      have hdiff : unit ',' ≠ unit ']' := by decide
      have htail := ih (fun c hc => hitems c (List.mem_cons_of_mem a hc)) (List.cons_ne_nil b bs)
        fuel (by simpa using hfuel) (result ++ [rebuilt a])
      simp only [List.map_cons, joinCommas, parseItems, List.append_assoc, List.cons_append,
        ws_serialize, bind_ok] at htail ⊢
      refine ⟨_, ha _ (delimited_cons (by simp) _), ?_⟩
      simp only [hcomma, hdiff, if_false, if_true]
      rw [htail]
      simp

theorem parseArray_reads {parse : Str → Checked (Parsed ν)} (items : List (Json ν))
    (hitems : ∀ a ∈ items, ReadsBack parse a) (rest : Str) :
    parseArray parse (joinCommas (items.map serializeValidatedJson) ++ unit ']' :: rest) =
      .ok (.arr (items.map rebuilt), rest) := by
  cases items with
  | nil =>
    have hbracket : ws (unit ']' :: rest) = unit ']' :: rest := ws_ink (by decide) rest
    simp [joinCommas, parseArray, hbracket]
  | cons a as =>
    have hparts : ∀ part ∈ (a :: as).map serializeValidatedJson, part ≠ [] := by
      intro part hpart
      obtain ⟨b, -, rfl⟩ := List.mem_map.mp hpart
      obtain ⟨u, tail, h, -⟩ := serialize_opens b
      simp [h]
    have hlength := joinCommas_length _ hparts
    have hread := parseItems_reads (a :: as) hitems (List.cons_ne_nil a as)
    obtain ⟨u, tail, h, hu⟩ := serialize_opens a
    obtain ⟨tail', h'⟩ : ∃ t, joinCommas ((a :: as).map serializeValidatedJson) = u :: t := by
      cases as <;> simp [joinCommas, h]
    rw [h'] at hlength ⊢
    rw [List.cons_append, parseArray, ws_ink hu.1]
    simp only [hu.2.1, if_false]
    rw [← List.cons_append, ← h']
    apply hread
    simp only [List.length_map, List.length_cons, List.length_append] at hlength ⊢
    omega

omit [LawfulEngine ν] in
theorem memberText_append (e : Str × Json ν) (rest : Str) : memberText e ++ rest =
    unit '"' :: (quoteBody e.1 ++ unit '"' :: unit ':' :: (serializeValidatedJson e.2 ++ rest)) := by
  simp [memberText, member, quote]

theorem parseMembers_reads {parse : Str → Checked (Parsed ν)} (es : List (Str × Json ν))
    (hes : ∀ e ∈ es, ReadsBack parse e.2) (hkeys : (es.map (·.1)).Nodup) (hne : es ≠ []) (fuel : ℕ)
    (hfuel : es.length ≤ fuel) (seen : List Str) (hseen : ∀ e ∈ es, e.1 ∉ seen)
    (result : List (Str × Json ν)) (rest : Str) :
    parseMembers parse fuel seen result (joinCommas (es.map memberText) ++ unit '\x7d' :: rest) =
      .ok (.obj (result ++ (es.map fun e => (e.1, rebuilt e.2)).filter fun e => ownField e.1), rest) := by
  induction es generalizing fuel seen result with
  | nil => exact absurd rfl hne
  | cons e es ih =>
    obtain ⟨fuel, rfl⟩ : ∃ m, fuel = m + 1 := ⟨fuel - 1, by simp at hfuel; omega⟩
    have he := hes e List.mem_cons_self
    have hfresh := hseen e List.mem_cons_self
    have hcolon : ∀ s, ws (unit ':' :: s) = unit ':' :: s := ws_ink (by decide)
    have hassign : ∀ more : List (Str × Json ν),
        assign result e.1 (rebuilt e.2) ++ more.filter (fun e => ownField e.1) =
          result ++ ((e.1, rebuilt e.2) :: more).filter fun e => ownField e.1 := by
      intro more
      rw [assign, List.filter_cons]
      split_ifs <;> simp
    cases es with
    | nil =>
      have hbrace : ws (unit '\x7d' :: rest) = unit '\x7d' :: rest := ws_ink (by decide) rest
      have hend := hassign []
      simp only [List.map_cons, List.map_nil, joinCommas, memberText_append, parseMembers, bind_ok]
      refine ⟨_, by rw [expect, if_pos rfl], _, parseString_quote e.1 _, (), refuseIf_ok.mpr hfresh,
        _, by rw [hcolon, expect, if_pos rfl], (rebuilt e.2, unit '\x7d' :: rest), ?_, ?_⟩
      · rw [ws_serialize]
        exact he _ (delimited_cons (by simp) rest)
      · simp only [hbrace, if_true]
        simpa using hend
    | cons e' es =>
      have hcomma : ∀ s, ws (unit ',' :: s) = unit ',' :: s := ws_ink (by decide)
      have hdiff : unit ',' ≠ unit '\x7d' := by decide
      obtain ⟨hnot, hkeys⟩ := List.nodup_cons.mp hkeys
      have hseen' : ∀ d ∈ e' :: es, d.1 ∉ e.1 :: seen := by
        intro d hd hmem
        rcases List.mem_cons.mp hmem with heq | hmem
        · exact hnot (List.mem_map.mpr ⟨d, hd, heq⟩)
        · exact hseen d (List.mem_cons_of_mem e hd) hmem
      have htail := ih (fun d hd => hes d (List.mem_cons_of_mem e hd)) hkeys (List.cons_ne_nil e' es)
        fuel (by simpa using hfuel) (e.1 :: seen) hseen' (assign result e.1 (rebuilt e.2))
      have hend := hassign ((e' :: es).map fun e => (e.1, rebuilt e.2))
      have hquote : ∀ s, ws (joinCommas ((e' :: es).map memberText) ++ s) =
          joinCommas ((e' :: es).map memberText) ++ s := by
        intro s
        cases es with
        | nil =>
          simp only [List.map_cons, List.map_nil, joinCommas, memberText_append]
          exact ws_ink (by decide) _
        | cons d ds =>
          simp only [List.map_cons, joinCommas, List.append_assoc, memberText_append]
          exact ws_ink (by decide) _
      simp only [List.map_cons, joinCommas, List.append_assoc, List.cons_append, memberText_append,
        parseMembers, bind_ok] at htail hquote hend ⊢
      refine ⟨_, by rw [expect, if_pos rfl], _, parseString_quote e.1 _, (), refuseIf_ok.mpr hfresh,
        _, by rw [hcolon, expect, if_pos rfl],
        (rebuilt e.2, unit ',' :: (joinCommas (memberText e' :: es.map memberText) ++
          unit '\x7d' :: rest)), ?_, ?_⟩
      · rw [ws_serialize]
        exact he _ (delimited_cons (by simp) _)
      · simp only [hcomma, hdiff, if_false, if_true]
        rw [hquote, htail, hend]

theorem parseObject_reads {parse : Str → Checked (Parsed ν)} (es : List (Str × Json ν))
    (hes : ∀ e ∈ es, ReadsBack parse e.2) (hkeys : (es.map (·.1)).Nodup) (rest : Str) :
    parseObject parse (joinCommas (es.map memberText) ++ unit '\x7d' :: rest) =
      .ok (.obj ((es.map fun e => (e.1, rebuilt e.2)).filter fun e => ownField e.1), rest) := by
  cases es with
  | nil =>
    have hbrace : ws (unit '\x7d' :: rest) = unit '\x7d' :: rest := ws_ink (by decide) rest
    simp [joinCommas, parseObject, hbrace]
  | cons e es =>
    have hparts : ∀ part ∈ (e :: es).map memberText, part ≠ [] := by
      intro part hpart
      obtain ⟨d, -, rfl⟩ := List.mem_map.mp hpart
      simp [memberText, member, quote]
    have hlength := joinCommas_length _ hparts
    have hread := parseMembers_reads (e :: es) hes hkeys (List.cons_ne_nil e es)
    obtain ⟨tail, h⟩ : ∃ t, joinCommas ((e :: es).map memberText) = unit '"' :: t := by
      cases es <;> simp [joinCommas, memberText, member, quote]
    rw [h] at hlength ⊢
    have hdiff : unit '"' ≠ unit '\x7d' := by decide
    rw [List.cons_append, parseObject, ws_ink (by decide)]
    simp only [hdiff, if_false]
    rw [← List.cons_append, ← h]
    have hresult := hread ((tail ++ unit '\x7d' :: rest).length + 1)
      (by simp only [List.length_map, List.length_cons, List.length_append] at hlength ⊢; omega) []
      (fun d _ => List.not_mem_nil) [] rest
    rwa [List.nil_append] at hresult

theorem digit_no_word {u : UInt16} (hu : u = unit '-' ∨ isDigit u = true) (rest : Str) :
    (js "true").isPrefixOf (u :: rest) = false ∧ (js "false").isPrefixOf (u :: rest) = false ∧
      (js "null").isPrefixOf (u :: rest) = false := by
  have hne : u ≠ unit 't' ∧ u ≠ unit 'f' ∧ u ≠ unit 'n' := by
    rcases hu with rfl | hu
    · decide
    · refine ⟨?_, ?_, ?_⟩
      all_goals
        rintro rfl
        revert hu
        decide
  have htrue : js "true" = unit 't' :: js "rue" := by decide
  have hfalse : js "false" = unit 'f' :: js "alse" := by decide
  have hnull : js "null" = unit 'n' :: js "ull" := by decide
  have ht : (unit 't' == u) = false := beq_false_of_ne (Ne.symm hne.1)
  have hf : (unit 'f' == u) = false := beq_false_of_ne (Ne.symm hne.2.1)
  have hn : (unit 'n' == u) = false := beq_false_of_ne (Ne.symm hne.2.2)
  simp [htrue, hfalse, hnull, List.isPrefixOf, ht, hf, hn]

theorem takeWord_digit {u : UInt16} (hu : u = unit '-' ∨ isDigit u = true) (rest : Str) :
    (takeWord (u :: rest) : Option (Parsed ν)) = none := by
  simp [takeWord, digit_no_word hu rest]

theorem parseNumber_print (n : ν) {rest : Str} (hrest : Delimited rest) :
    parseNumber (Engine.print n ++ rest) = .ok (Json.num n, rest) := by
  have h := numeral_append (LawfulEngine.print_numeral n) hrest
  rw [List.nil_append] at h
  rw [parseNumber, bind_ok]
  refine ⟨_, demand_ok.mpr h, ?_⟩
  simp only [LawfulEngine.read_print]

theorem parseValue_word (total levels : ℕ) {word : Str} {u : UInt16} {tail rest : Str} {j : Json ν}
    (hword : word = u :: tail) (hu : u ≠ unit '\x7b' ∧ u ≠ unit '[' ∧ u ≠ unit '"')
    (htake : takeWord (word ++ rest) = some (j, rest)) :
    parseValue total (levels + 1) (word ++ rest) = .ok (j, rest) := by
  subst hword
  rw [List.cons_append] at htake ⊢
  simp only [parseValue, hu.1, hu.2.1, hu.2.2, if_false, parseScalar, htake]

theorem parseValue_obj (total : ℕ) {levels : ℕ} {fields : List (Str × Json ν)}
    (hkeys : (fields.map (·.1)).Nodup)
    (hfields : ∀ e ∈ fields, ReadsBack (parseValue total levels) e.2) (rest : Str) :
    parseValue total (levels + 1) (serializeValidatedJson (.obj fields) ++ rest) =
      .ok (rebuilt (.obj fields), rest) := by
  have hsorted : ∀ e ∈ sortByKey fields, ReadsBack (parseValue total levels) e.2 :=
    fun e he => hfields e (mem_sortByKey.mp he)
  have hnodup : ((sortByKey fields).map (·.1)).Nodup :=
    ((sortByKey_perm fields).map _).nodup_iff.mpr hkeys
  have hobject := parseObject_reads (sortByKey fields) hsorted hnodup rest
  rw [serialize_obj, rebuilt_obj, List.append_assoc, List.cons_append, List.singleton_append]
  simp only [parseValue, if_true, hobject]

/-- The parser inverts the serializer up to `rebuilt`, at every depth the encoder accepts. -/
theorem parseValue_serialize (total : ℕ) (j : Json ν) (hdistinct : distinctKeys j = true)
    (depth levels : ℕ) (hlevels : depth + levels = 33) (h : assertJsonValue j depth = .ok ()) :
    ReadsBack (parseValue total levels) j := by
  induction j using Json.induct generalizing depth levels with
  | scalar j harr hobj =>
    obtain ⟨levels, rfl⟩ : ∃ m, levels = m + 1 := ⟨levels - 1, by have := assert_depth h; omega⟩
    intro rest hrest
    cases j with
    | arr items => exact absurd rfl (harr items)
    | obj fields => exact absurd rfl (hobj fields)
    | null => exact parseValue_word total levels (by rfl) (by decide) (by rfl)
    | bool b =>
      cases b with
      | false => exact parseValue_word total levels (by rfl) (by decide) (by rfl)
      | true => exact parseValue_word total levels (by rfl) (by decide) (by rfl)
    | num n =>
      obtain ⟨u, tail, hprint, hu⟩ := print_opens n
      have hne : u ≠ unit '\x7b' ∧ u ≠ unit '[' ∧ u ≠ unit '"' := by
        rcases hu with rfl | hu
        · decide
        · refine ⟨?_, ?_, ?_⟩
          all_goals
            rintro rfl
            revert hu
            decide
      have hnumber := parseNumber_print n hrest
      rw [serializeValidatedJson, rebuilt, hprint, List.cons_append]
      rw [hprint, List.cons_append] at hnumber
      simp only [parseValue, hne.1, hne.2.1, hne.2.2, if_false, parseScalar, takeWord_digit hu, hu,
        if_true, hnumber]
    | str s =>
      have hne : unit '"' ≠ unit '\x7b' ∧ unit '"' ≠ unit '[' := by decide
      rw [serializeValidatedJson, rebuilt, quote_cons]
      simp only [parseValue, hne.1, hne.2, if_false, if_true, parseString_quote]
      rfl
  | arr items ih =>
    obtain ⟨levels, rfl⟩ : ∃ m, levels = m + 1 := ⟨levels - 1, by have := assert_depth h; omega⟩
    rw [assert_arr] at h
    rw [distinct_arr] at hdistinct
    have hitems : ∀ a ∈ items, ReadsBack (parseValue total levels) a := fun a ha =>
      ih a ha (hdistinct a ha) (depth + 1) levels (by omega) (h.2 a ha)
    have hne : unit '[' ≠ unit '\x7b' := by decide
    intro rest hrest
    have harray := parseArray_reads items hitems rest
    rw [serialize_arr, rebuilt_arr, List.append_assoc, List.cons_append, List.singleton_append]
    simp only [parseValue, hne, if_false, if_true, harray]
  | obj fields ih =>
    obtain ⟨levels, rfl⟩ : ∃ m, levels = m + 1 := ⟨levels - 1, by have := assert_depth h; omega⟩
    rw [assert_obj] at h
    rw [distinct_obj] at hdistinct
    have hfields : ∀ e ∈ fields, ReadsBack (parseValue total levels) e.2 := fun e he =>
      ih e he (hdistinct.2 e he) (depth + 1) levels (by omega) (h.2 e he)
    exact fun rest _ => parseValue_obj total hdistinct.1 hfields rest

theorem parse_serialize (v : JsonValue ν) (h : assertJsonValue v.json 0 = .ok ()) :
    parse (serializeValidatedJson v.json) = .ok (rebuilt v.json) := by
  have hread := parseValue_serialize (serializeValidatedJson v.json).length v.json v.distinct 0 33
    (by omega) h [] delimited_nil
  rw [List.append_nil] at hread
  rw [parse, hread]
  simp [bind, Except.bind, refuseIf]

end Parsing

end Terminay.Protocol
