import Mathlib.Algebra.Order.BigOperators.Group.List
import Mathlib.Algebra.Order.Group.Nat
import Terminay.Protocol.JsonRoundTrip

/-!
# Decoding what was encoded

A value decodes to one with the same structure exactly when no object in it has
a field of its own named `__proto__`: the decoder's own serialization then is the
text it read, and otherwise it is shorter.
-/

namespace Terminay.Protocol
open Script Outcome Lists

variable {ν : Type} [Engine ν]

section Lengths

mutual
def byteLength : Json ν → ℕ
  | .null => 4
  | .bool b => if b then 4 else 5
  | .num n => (textEncode (Engine.print n)).length
  | .str s => (textEncode (quote s)).length
  | .arr items => 2 + (itemsLength items - 1)
  | .obj fields => 2 + (fieldsLength fields - 1)
def itemsLength : List (Json ν) → ℕ
  | [] => 0
  | a :: as => byteLength a + 1 + itemsLength as
def fieldsLength : List (Str × Json ν) → ℕ
  | [] => 0
  | (k, a) :: es => (textEncode (quote k)).length + 1 + byteLength a + 1 + fieldsLength es
end

def memberLength (e : Str × Json ν) : ℕ := (textEncode (quote e.1)).length + 1 + byteLength e.2

theorem itemsLength_sum (items : List (Json ν)) :
    itemsLength items = (items.map fun a => byteLength a + 1).sum := by
  induction items with
  | nil => rfl
  | cons a as ih => rw [itemsLength, ih, List.map_cons, List.sum_cons]

theorem fieldsLength_sum (fields : List (Str × Json ν)) :
    fieldsLength fields = (fields.map fun e => memberLength e + 1).sum := by
  induction fields with
  | nil => rfl
  | cons e es ih => rw [fieldsLength, ih, List.map_cons, List.sum_cons, memberLength]

theorem fieldsLength_perm {es fs : List (Str × Json ν)} (h : es.Perm fs) :
    fieldsLength es = fieldsLength fs := by
  rw [fieldsLength_sum, fieldsLength_sum]
  exact (h.map _).sum_eq

omit [Engine ν] in
theorem joinCommas_paired {parts : List Str} (h : ∀ part ∈ parts, Paired part) :
    Paired (joinCommas parts) := by
  induction parts with
  | nil => exact Paired.nil
  | cons part parts ih =>
    have hpart := h part List.mem_cons_self
    have htail := ih fun p hp => h p (List.mem_cons_of_mem part hp)
    cases parts with
    | nil => exact hpart
    | cons next parts => exact hpart.append (Paired.cons (by decide) htail)

theorem textEncode_unit {u : UInt16} (hu : u.toNat < 128) (s : Str) :
    (textEncode (u :: s)).length = 1 + (textEncode s).length := by
  have hplain : isSurrogate u = false := by
    rw [Bool.eq_false_iff, ne_eq, isSurrogate_iff]
    omega
  have hone : (textEncode [u]).length = 1 := by
    have hnat : (Char.ofNat u.toNat).toNat = u.toNat := toNat_ofNat (by omega)
    rw [textEncode, scalar_cons hplain, scalars, List.flatMap_singleton, String.length_utf8EncodeChar,
      Char.utf8Size_eq_one_iff]
    have h127 : (127 : UInt32).toNat = 127 := rfl
    rw [UInt32.le_iff_toNat_le, h127]
    exact le_of_eq_of_le hnat (by omega)
  have happend := textEncode_append (Paired.one hplain) s
  rw [List.singleton_append] at happend
  rw [happend, List.length_append, hone]

theorem joinCommas_bytes {parts : List Str} (h : ∀ part ∈ parts, Paired part) :
    (textEncode (joinCommas parts)).length =
      (parts.map fun part => (textEncode part).length + 1).sum - 1 := by
  induction parts with
  | nil => rfl
  | cons part parts ih =>
    have hpart := h part List.mem_cons_self
    have htail := ih fun p hp => h p (List.mem_cons_of_mem part hp)
    cases parts with
    | nil => simp [joinCommas]
    | cons next parts =>
      rw [joinCommas, textEncode_append hpart, List.length_append, textEncode_unit (by decide), htail]
      simp only [List.map_cons, List.sum_cons]
      omega

variable [LawfulEngine ν]

theorem serialize_paired (j : Json ν) : Paired (serializeValidatedJson j) := by
  induction j using Json.induct with
  | scalar j harr hobj =>
    cases j with
    | arr items => exact absurd rfl (harr items)
    | obj fields => exact absurd rfl (hobj fields)
    | null => exact Paired.word_null
    | bool b =>
      cases b with
      | false => exact Paired.word_false
      | true => exact Paired.word_true
    | num n =>
      have hunits := numeral_units (LawfulEngine.print_numeral n)
      exact Paired.of_plain fun u hu => isNumberUnit_plain (hunits u hu)
    | str s => exact quote_paired s
  | arr items ih =>
    have hparts : ∀ part ∈ items.map serializeValidatedJson, Paired part := by
      intro part hpart
      obtain ⟨a, ha, rfl⟩ := List.mem_map.mp hpart
      exact ih a ha
    rw [serialize_arr]
    exact (Paired.cons (by decide) (joinCommas_paired hparts)).append (Paired.one (by decide))
  | obj fields ih =>
    have hparts : ∀ part ∈ (sortByKey fields).map memberText, Paired part := by
      intro part hpart
      obtain ⟨e, he, rfl⟩ := List.mem_map.mp hpart
      rw [mem_sortByKey] at he
      exact (quote_paired e.1).append (Paired.cons (by decide) (ih e he))
    rw [serialize_obj]
    exact (Paired.cons (by decide) (joinCommas_paired hparts)).append (Paired.one (by decide))

omit [LawfulEngine ν] in
theorem brackets_bytes {u v : UInt16} (hu : u.toNat < 128) (hv : v.toNat < 128) {s : Str}
    (hs : Paired s) : (textEncode (u :: s ++ [v])).length = 2 + (textEncode s).length := by
  rw [List.cons_append, textEncode_unit hu, textEncode_append hs, List.length_append,
    textEncode_unit hv]
  simp only [textEncode, scalars, List.flatMap_nil, List.length_nil]
  omega

theorem memberText_paired (e : Str × Json ν) : Paired (memberText e) :=
  (quote_paired e.1).append (Paired.cons (by decide) (serialize_paired e.2))

theorem serialize_bytes (j : Json ν) :
    (textEncode (serializeValidatedJson j)).length = byteLength j := by
  induction j using Json.induct with
  | scalar j harr hobj =>
    cases j with
    | arr items => exact absurd rfl (harr items)
    | obj fields => exact absurd rfl (hobj fields)
    | null => exact (by decide : (textEncode (js "null")).length = 4)
    | bool b =>
      cases b with
      | false => exact (by decide : (textEncode (js "false")).length = 5)
      | true => exact (by decide : (textEncode (js "true")).length = 4)
    | num n => rw [serializeValidatedJson, byteLength]
    | str s => rw [serializeValidatedJson, byteLength]
  | arr items ih =>
    have hparts : ∀ part ∈ items.map serializeValidatedJson, Paired part := by
      intro part hpart
      obtain ⟨a, -, rfl⟩ := List.mem_map.mp hpart
      exact serialize_paired a
    have hsum : (items.map fun a => (textEncode (serializeValidatedJson a)).length + 1) =
        items.map fun a => byteLength a + 1 :=
      List.map_congr_left fun a ha => by rw [ih a ha]
    rw [serialize_arr, brackets_bytes (by decide) (by decide) (joinCommas_paired hparts),
      joinCommas_bytes hparts, List.map_map, byteLength, itemsLength_sum, ← hsum]
    rfl
  | obj fields ih =>
    have hparts : ∀ part ∈ (sortByKey fields).map memberText, Paired part := by
      intro part hpart
      obtain ⟨e, -, rfl⟩ := List.mem_map.mp hpart
      exact memberText_paired e
    have hmember : ∀ e ∈ sortByKey fields,
        (textEncode (memberText e)).length + 1 = memberLength e + 1 := by
      intro e he
      rw [mem_sortByKey] at he
      rw [memberText, member, textEncode_append (quote_paired e.1), List.length_append,
        textEncode_unit (by decide), ih e he, memberLength]
      omega
    rw [serialize_obj, brackets_bytes (by decide) (by decide) (joinCommas_paired hparts),
      joinCommas_bytes hparts, List.map_map, byteLength, ← fieldsLength_perm (sortByKey_perm fields),
      fieldsLength_sum, ← List.map_congr_left hmember]
    rfl

end Lengths

theorem filtered_length (es : List (Str × Json ν)) (h : ∀ e ∈ es, byteLength (rebuilt e.2) ≤ byteLength e.2) :
    fieldsLength ((es.map fun e => (e.1, rebuilt e.2)).filter fun e => ownField e.1) ≤
      fieldsLength es := by
  induction es with
  | nil => simp
  | cons e es ih =>
    have he := h e List.mem_cons_self
    have htail := ih fun d hd => h d (List.mem_cons_of_mem e hd)
    rw [List.map_cons, List.filter_cons]
    split_ifs
    · simp only [fieldsLength]
      omega
    · simp only [fieldsLength]
      omega

theorem filtered_length_lt (es : List (Str × Json ν))
    (h : ∀ e ∈ es, byteLength (rebuilt e.2) ≤ byteLength e.2)
    (hlt : ∃ e ∈ es, ownField e.1 = false ∨ byteLength (rebuilt e.2) < byteLength e.2) :
    fieldsLength ((es.map fun e => (e.1, rebuilt e.2)).filter fun e => ownField e.1) + 1 ≤
      fieldsLength es := by
  induction es with
  | nil => simp at hlt
  | cons e es ih =>
    have he := h e List.mem_cons_self
    have hall : ∀ d ∈ es, byteLength (rebuilt d.2) ≤ byteLength d.2 := fun d hd =>
      h d (List.mem_cons_of_mem e hd)
    have htail := filtered_length es hall
    rw [List.map_cons, List.filter_cons]
    obtain ⟨d, hd, hlt⟩ := hlt
    by_cases hown : ownField e.1 = true
    · simp only [hown, if_true, fieldsLength]
      rcases List.mem_cons.mp hd with rfl | hd
      · have hless : byteLength (rebuilt d.2) < byteLength d.2 := hlt.resolve_left (by simp [hown])
        omega
      · have hrest := ih hall ⟨d, hd, hlt⟩
        omega
    · simp only [hown, Bool.false_eq_true, if_false, fieldsLength]
      omega

theorem filtered_length_pos (es : List (Str × Json ν)) (hne : es ≠ []) : 2 ≤ fieldsLength es := by
  cases es with
  | nil => exact absurd rfl hne
  | cons e es =>
    rw [fieldsLength]
    omega

example : ownField (js "__proto__") = false := by decide +kernel

theorem rebuilt_length (j : Json ν) : byteLength (rebuilt j) ≤ byteLength j := by
  induction j using Json.induct with
  | scalar j harr hobj => rw [rebuilt_scalar harr hobj]
  | arr items ih =>
    rw [rebuilt_arr, byteLength, byteLength]
    have hsum : itemsLength (items.map rebuilt) ≤ itemsLength items := by
      rw [itemsLength_sum, itemsLength_sum, List.map_map]
      exact List.sum_le_sum fun a ha => Nat.add_le_add_right (ih a ha) 1
    omega
  | obj fields ih =>
    have hsum := filtered_length (sortByKey fields) fun e he => ih e (mem_sortByKey.mp he)
    rw [fieldsLength_perm (sortByKey_perm fields)] at hsum
    rw [rebuilt_obj, byteLength, byteLength]
    omega

theorem rebuilt_shorter (j : Json ν) (h : ownsProto j = true) : byteLength (rebuilt j) < byteLength j := by
  induction j using Json.induct with
  | scalar j harr hobj =>
    cases j with
    | arr items => exact absurd rfl (harr items)
    | obj fields => exact absurd rfl (hobj fields)
    | _ => simp [ownsProto] at h
  | arr items ih =>
    rw [ownsProto_arr] at h
    obtain ⟨a, ha, hproto⟩ := h
    have hsum : itemsLength (items.map rebuilt) < itemsLength items := by
      rw [itemsLength_sum, itemsLength_sum, List.map_map]
      exact List.sum_lt_sum _ _ (fun b _ => Nat.add_le_add_right (rebuilt_length b) 1)
        ⟨a, ha, Nat.add_lt_add_right (ih a ha hproto) 1⟩
    have hpos : 0 < itemsLength (items.map rebuilt) := by
      rw [itemsLength_sum]
      exact List.sum_pos _ (by simp) (by simpa using List.ne_nil_of_mem ha)
    rw [rebuilt_arr, byteLength, byteLength]
    omega
  | obj fields ih =>
    rw [ownsProto_obj] at h
    obtain ⟨e, he, hproto⟩ := h
    have hsum := filtered_length_lt (sortByKey fields) (fun d _ => rebuilt_length d.2)
      ⟨e, mem_sortByKey.mpr he, hproto.imp_right (ih e he)⟩
    rw [fieldsLength_perm (sortByKey_perm fields)] at hsum
    have hpos := filtered_length_pos fields (List.ne_nil_of_mem he)
    rw [rebuilt_obj, byteLength, byteLength]
    omega

section

omit [Engine ν]

theorem ownsProto_items {items : List (Json ν)} (h : ownsProto (.arr items) = false) :
    ∀ a ∈ items, ownsProto a = false := by
  intro a ha
  rw [Bool.eq_false_iff]
  exact fun hproto => Bool.false_ne_true (h.symm.trans ((ownsProto_arr items).mpr ⟨a, ha, hproto⟩))

theorem ownsProto_fields {fields : List (Str × Json ν)} (h : ownsProto (.obj fields) = false) :
    ∀ e ∈ fields, ownField e.1 = true ∧ ownsProto e.2 = false := by
  intro e he
  by_contra hnot
  have hproto : ownField e.1 = false ∨ ownsProto e.2 = true := by
    by_contra hor
    rw [not_or, Bool.not_eq_false, Bool.not_eq_true] at hor
    exact hnot hor
  exact Bool.false_ne_true (h.symm.trans ((ownsProto_obj fields).mpr ⟨e, he, hproto⟩))

theorem rebuilt_kept {fields : List (Str × Json ν)} (h : ownsProto (.obj fields) = false) :
    rebuilt (.obj fields) = .obj ((sortByKey fields).map fun e => (e.1, rebuilt e.2)) := by
  rw [rebuilt_obj]
  congr 1
  rw [List.filter_eq_self]
  intro e he
  obtain ⟨d, hd, rfl⟩ := List.mem_map.mp he
  exact (ownsProto_fields h d (mem_sortByKey.mp hd)).1

end

theorem rebuilt_serialize (j : Json ν) (h : ownsProto j = false) :
    serializeValidatedJson (rebuilt j) = serializeValidatedJson j := by
  induction j using Json.induct with
  | scalar j harr hobj => rw [rebuilt_scalar harr hobj]
  | arr items ih =>
    rw [rebuilt_arr, serialize_arr, serialize_arr, List.map_map]
    congr 3
    exact List.map_congr_left fun a ha => ih a ha (ownsProto_items h a ha)
  | obj fields ih =>
    have hsorted : sortByKey ((sortByKey fields).map fun e => (e.1, rebuilt e.2)) =
        (sortByKey fields).map fun e => (e.1, rebuilt e.2) := by
      rw [← sortByKey_map]
      exact (sortByKey_sorted _).insertionSort_eq
    rw [rebuilt_kept h, serialize_obj, serialize_obj, hsorted, List.map_map]
    congr 3
    apply List.map_congr_left
    intro e he
    rw [mem_sortByKey] at he
    simp only [Function.comp_apply, memberText, ih e he (ownsProto_fields h e he).2]

theorem rebuilt_alike (j : Json ν) (hdistinct : distinctKeys j = true) (h : ownsProto j = false) :
    alike j (rebuilt j) = true := by
  induction j using Json.induct with
  | scalar j harr hobj =>
    cases j with
    | arr items => exact absurd rfl (harr items)
    | obj fields => exact absurd rfl (hobj fields)
    | _ => simp [rebuilt, alike]
  | arr items ih =>
    rw [distinct_arr] at hdistinct
    rw [rebuilt_arr, alike_arr, List.forall₂_map_right_iff, List.forall₂_same]
    exact fun a ha => ih a ha (hdistinct a ha) (ownsProto_items h a ha)
  | obj fields ih =>
    rw [distinct_obj] at hdistinct
    rw [rebuilt_kept h, alike_obj]
    refine ⟨by rw [List.length_map, (sortByKey_perm fields).length_eq], fun e he => ?_⟩
    refine ⟨rebuilt e.2, ?_, ih e he (hdistinct.2 e he) (ownsProto_fields h e he).2⟩
    apply Table.get_foldl_insert_mem
    · exact List.mem_map.mpr ⟨e, mem_sortByKey.mpr he, rfl⟩
    · intro w hw
      obtain ⟨d, hd, heq⟩ := List.mem_map.mp hw
      rw [mem_sortByKey] at hd
      have hde : d = e := List.inj_on_of_nodup_map hdistinct.1 hd he (Prod.mk.inj heq).1
      rw [← hde]
      exact (Prod.mk.inj heq).2.symm

section Decoding

theorem encode_ok {v : Json ν} {bytes : Bytes} : encodeCanonicalJson v = .ok bytes ↔
    assertJsonValue v 0 = .ok () ∧ textEncode (serializeValidatedJson v) = bytes := by
  simp only [encodeCanonicalJson, canonicalize, bind_ok, Except.ok.injEq]
  constructor
  · rintro ⟨text, ⟨u, hassert, rfl⟩, hbytes⟩
    exact ⟨hassert, hbytes⟩
  · rintro ⟨hassert, hbytes⟩
    exact ⟨_, ⟨(), hassert, rfl⟩, hbytes⟩

theorem decode_ok {bytes : Bytes} {w : Json ν} : decodeCanonicalJson bytes = .ok w ↔
    ∃ text, textDecode bytes = some text ∧ parse text = .ok w ∧ canonicalize w = .ok text := by
  rw [decodeCanonicalJson]
  simp only [bind_ok, demand_ok, refuseIf_ok]
  constructor
  · rintro ⟨text, htext, value, hparse, canonical, hcanonical, u, hsame, heq⟩
    cases heq
    rw [not_not] at hsame
    exact ⟨text, htext, hparse, hsame ▸ hcanonical⟩
  · rintro ⟨text, htext, hparse, hcanonical⟩
    exact ⟨text, htext, w, hparse, text, hcanonical, (), by simp, rfl⟩

variable [LawfulEngine ν]

theorem serialize_decodes (j : Json ν) :
    textDecode (textEncode (serializeValidatedJson j)) = some (serializeValidatedJson j) := by
  obtain ⟨u, rest, h, hu⟩ := serialize_opens j
  apply textDecode_textEncode (serialize_paired j)
  rw [h, List.head?_cons]
  exact fun hmark => hu.2.2.2 (Option.some.inj hmark)

theorem decode_encoded (v : JsonValue ν) {bytes : Bytes}
    (hencode : encodeCanonicalJson v.json = .ok bytes) (w : Json ν) :
    decodeCanonicalJson bytes = .ok w ↔ ownsProto v.json = false ∧ w = rebuilt v.json := by
  obtain ⟨hassert, rfl⟩ := encode_ok.mp hencode
  rw [decode_ok]
  simp only [serialize_decodes, Option.some.injEq, exists_eq_left', parse_serialize v hassert,
    Except.ok.injEq]
  have hrebuilt := rebuilt_asserted v.json 0 hassert
  constructor
  · rintro ⟨rfl, hcanonical⟩
    refine ⟨?_, rfl⟩
    by_contra hproto
    rw [Bool.not_eq_false] at hproto
    have hshorter := rebuilt_shorter v.json hproto
    have htext : serializeValidatedJson (rebuilt v.json) = serializeValidatedJson v.json := by
      simpa [canonicalize, hrebuilt, bind_ok] using hcanonical
    rw [← serialize_bytes, ← serialize_bytes, htext] at hshorter
    exact lt_irrefl _ hshorter
  · rintro ⟨hproto, rfl⟩
    refine ⟨rfl, ?_⟩
    simp [canonicalize, hrebuilt, bind_ok, rebuilt_serialize v.json hproto]

end Decoding

end Terminay.Protocol
