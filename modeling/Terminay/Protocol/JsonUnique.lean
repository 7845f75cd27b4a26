import Terminay.Protocol.Envelope

/-!
# One text for each value

What the parser builds lists its keys once, values of the same structure have the
same canonical text, and an accepted byte string is the encoding of the value it
decodes to unless it starts with a byte order mark, which the text decoder drops
before the text is compared.
-/

namespace Terminay.Protocol
open Script Workspace Outcome Lists

variable {ν : Type} [Engine ν]

section Distinct

def Distinct (p : Parsed ν) : Prop := distinctKeys p.1 = true

omit [Engine ν] in
theorem parseItems_distinct {parse : Str → Checked (Parsed ν)} (hparse : ∀ s, Ensures (parse s) Distinct)
    (fuel : ℕ) (result : List (Json ν)) (hresult : ∀ a ∈ result, distinctKeys a = true) (s : Str) :
    Ensures (parseItems parse fuel result s) Distinct := by
  induction fuel generalizing result s with
  | zero => exact Ensures.error
  | succ fuel ih =>
    rw [parseItems]
    apply Ensures.bind
    intro item hitem
    have hitems : ∀ a ∈ result ++ [item.1], distinctKeys a = true := by
      intro a ha
      rcases List.mem_append.mp ha with ha | ha
      · exact hresult a ha
      · rw [List.mem_singleton.mp ha]
        exact hparse _ item hitem
    cases ws item.2 with
    | nil => exact Ensures.error
    | cons u rest =>
      apply Ensures.ite
      · intro _
        exact Ensures.ok ((distinct_arr _).mpr hitems)
      · intro _
        apply Ensures.ite
        · exact fun _ => ih _ hitems rest
        · exact fun _ => Ensures.error

omit [Engine ν] in
theorem parseArray_distinct {parse : Str → Checked (Parsed ν)} (hparse : ∀ s, Ensures (parse s) Distinct)
    (s : Str) : Ensures (parseArray parse s) Distinct := by
  rw [parseArray]
  cases ws s with
  | nil => exact parseItems_distinct hparse 1 [] (by simp) []
  | cons u rest =>
    apply Ensures.ite
    · exact fun _ => Ensures.ok rfl
    · exact fun _ => parseItems_distinct hparse _ [] (by simp) _

/-- The fields collected so far: keys listed once, all of them seen. -/
structure Collected (seen : List Str) (result : List (Str × Json ν)) : Prop where
  nodup : (result.map (·.1)).Nodup
  seen : ∀ e ∈ result, e.1 ∈ seen
  values : ∀ e ∈ result, distinctKeys e.2 = true

section

omit [Engine ν]

theorem Collected.assign {seen : List Str} {result : List (Str × Json ν)} (h : Collected seen result)
    {key : Str} (hkey : key ∉ seen) {value : Json ν} (hvalue : distinctKeys value = true) :
    Collected (key :: seen) (assign result key value) := by
  have hseen : ∀ e ∈ result, e.1 ∈ key :: seen := fun e he => List.mem_cons_of_mem key (h.seen e he)
  rw [Protocol.assign]
  split_ifs
  · refine ⟨?_, ?_, ?_⟩
    · rw [List.map_append, List.nodup_append]
      refine ⟨h.nodup, by simp, ?_⟩
      intro k hk l hl hkl
      obtain ⟨e, he, rfl⟩ := List.mem_map.mp hk
      rw [List.map_singleton, List.mem_singleton] at hl
      have hek : e.1 = key := hkl.trans hl
      rw [← hek] at hkey
      exact hkey (h.seen e he)
    · intro e he
      rcases List.mem_append.mp he with he | he
      · exact hseen e he
      · rw [List.mem_singleton.mp he]
        exact List.mem_cons_self
    · intro e he
      rcases List.mem_append.mp he with he | he
      · exact h.values e he
      · rw [List.mem_singleton.mp he]
        exact hvalue
  · exact ⟨h.nodup, hseen, h.values⟩

theorem parseMembers_distinct {parse : Str → Checked (Parsed ν)}
    (hparse : ∀ s, Ensures (parse s) Distinct) (fuel : ℕ) (seen : List Str)
    (result : List (Str × Json ν)) (h : Collected seen result) (s : Str) :
    Ensures (parseMembers parse fuel seen result s) Distinct := by
  induction fuel generalizing seen result s with
  | zero => exact Ensures.error
  | succ fuel ih =>
    rw [parseMembers]
    apply Ensures.bind
    intro s₁ _
    apply Ensures.bind
    intro key _
    apply Ensures.bind
    intro _ hfresh
    rw [refuseIf_ok] at hfresh
    apply Ensures.bind
    intro s₂ _
    apply Ensures.bind
    intro value hvalue
    have hnext := h.assign hfresh (hparse _ value hvalue)
    cases ws value.2 with
    | nil => exact Ensures.error
    | cons u rest =>
      apply Ensures.ite
      · intro _
        exact Ensures.ok ((distinct_obj _).mpr ⟨hnext.nodup, hnext.values⟩)
      · intro _
        apply Ensures.ite
        · exact fun _ => ih _ _ hnext _
        · exact fun _ => Ensures.error

theorem parseObject_distinct {parse : Str → Checked (Parsed ν)}
    (hparse : ∀ s, Ensures (parse s) Distinct) (s : Str) :
    Ensures (parseObject parse s) Distinct := by
  have hnone : Collected [] ([] : List (Str × Json ν)) := ⟨List.nodup_nil, (by simp), (by simp)⟩
  rw [parseObject]
  cases ws s with
  | nil => exact parseMembers_distinct hparse 1 [] [] hnone []
  | cons u rest =>
    apply Ensures.ite
    · exact fun _ => Ensures.ok rfl
    · exact fun _ => parseMembers_distinct hparse _ [] [] hnone _

end

theorem parseScalar_distinct (total : ℕ) (u : UInt16) (rest : Str) :
    Ensures (parseScalar total u rest : Checked (Parsed ν)) Distinct := by
  rw [parseScalar]
  cases htake : (takeWord (u :: rest) : Option (Parsed ν)) with
  | some parsed =>
    apply Ensures.ok
    unfold takeWord at htake
    split_ifs at htake <;> cases htake <;> rfl
  | none =>
    apply Ensures.ite
    · intro _
      apply Ensures.bind
      intro literal _
      cases (Engine.read literal.1 : Numeric ν) with
      | finite n => exact Ensures.ok rfl
      | infinite b => exact Ensures.error
      | nan => exact Ensures.error
    · exact fun _ => Ensures.error

theorem parseValue_distinct (total levels : ℕ) (s : Str) :
    Ensures (parseValue total levels s : Checked (Parsed ν)) Distinct := by
  induction levels generalizing s with
  | zero => exact Ensures.error
  | succ levels ih =>
    cases s with
    | nil => exact Ensures.error
    | cons u rest =>
      rw [parseValue]
      apply Ensures.ite
      · exact fun _ => parseObject_distinct ih rest
      · intro _
        apply Ensures.ite
        · exact fun _ => parseArray_distinct ih rest
        · intro _
          apply Ensures.ite
          · intro _ p hp
            cases hstring : parseString rest with
            | error e =>
              rw [hstring] at hp
              cases hp
            | ok q =>
              rw [hstring] at hp
              cases hp
              rfl
          · exact fun _ => parseScalar_distinct total u rest

theorem parse_distinct (text : Str) : Ensures (parse text : Checked (Json ν)) fun j =>
    distinctKeys j = true := by
  apply Ensures.bind
  intro p hp
  apply Ensures.bind
  intro _ _
  exact Ensures.ok (parseValue_distinct text.length 33 text p hp)

end Distinct

theorem KeyLE.antisymm {κ α : Type} [Ord κ] [Std.TransOrd κ] [Std.LawfulEqOrd κ] {a b : κ × α}
    (hab : KeyLE a b) (hba : KeyLE b a) : a.1 = b.1 :=
  Std.LawfulEqCmp.eq_of_compare (Std.OrientedCmp.isLE_antisymm hab hba)

theorem sortByKey_eq {α : Type} {es fs : List (Str × α)} (hperm : es.Perm fs)
    (hkeys : (es.map (·.1)).Nodup) : sortByKey es = sortByKey fs := by
  have hsorted : (sortByKey es).Perm (sortByKey fs) :=
    (sortByKey_perm es).trans (hperm.trans (sortByKey_perm fs).symm)
  apply hsorted.eq_of_pairwise _ (sortByKey_sorted es) (sortByKey_sorted fs)
  intro a b ha hb hab hba
  rw [mem_sortByKey] at ha hb
  exact List.inj_on_of_nodup_map hkeys ha (hperm.mem_iff.mpr hb) (KeyLE.antisymm hab hba)

theorem alike_serialize (a b : Json ν) (ha : distinctKeys a = true) (hb : distinctKeys b = true)
    (h : alike a b = true) : serializeValidatedJson a = serializeValidatedJson b := by
  induction a using Json.induct generalizing b with
  | scalar j harr hobj =>
    cases j with
    | arr items => exact absurd rfl (harr items)
    | obj fields => exact absurd rfl (hobj fields)
    | _ => cases b <;> simp_all [alike]
  | arr items ih =>
    cases b with
    | arr bs =>
      rw [alike_arr] at h
      rw [distinct_arr] at ha hb
      rw [serialize_arr, serialize_arr]
      congr 3
      induction h with
      | nil => rfl
      | @cons x y xs ys hxy hrest ihrest =>
        rw [List.map_cons, List.map_cons, ih x List.mem_cons_self y (ha x List.mem_cons_self)
          (hb y List.mem_cons_self) hxy]
        rw [ihrest (fun z hz => ih z (List.mem_cons_of_mem x hz))
          (fun z hz => ha z (List.mem_cons_of_mem x hz)) fun z hz => hb z (List.mem_cons_of_mem y hz)]
    | _ => simp [alike] at h
  | obj fields ih =>
    cases b with
    | obj bs =>
      rw [alike_obj] at h
      rw [distinct_obj] at ha hb
      have hperm : (serializeFields fields).Perm (serializeFields bs) := by
        have hnodup : (serializeFields fields).Nodup := by
          rw [serializeFields_map]
          apply List.Nodup.of_map Prod.fst
          rw [List.map_map]
          exact ha.1
        have hsub : serializeFields fields ⊆ serializeFields bs := by
          intro e he
          rw [serializeFields_map] at he ⊢
          obtain ⟨d, hd, rfl⟩ := List.mem_map.mp he
          obtain ⟨c, hc, hdc⟩ := h.2 d hd
          have hmem := ofEntries_mem hc
          rw [ih d hd c (ha.2 d hd) (hb.2 _ hmem) hdc]
          exact List.mem_map.mpr ⟨(d.1, c), hmem, rfl⟩
        apply (hnodup.subperm hsub).perm_of_length_le
        rw [serializeFields_map, serializeFields_map, List.length_map, List.length_map, h.1]
      have hkeys : ((serializeFields fields).map (·.1)).Nodup := by
        rw [serializeFields_map, List.map_map]
        exact ha.1
      rw [serializeValidatedJson, serializeValidatedJson, sortByKey_eq hperm hkeys]
    | _ => simp [alike] at h

def byteOrderMark : Bytes := [0xEF, 0xBB, 0xBF]

theorem utf8_mark (bytes : Bytes) :
    (byteOrderMark ++ bytes).toByteArray = ['\uFEFF'].utf8Encode ++ bytes.toByteArray := by
  rw [List.toByteArray_append]
  rfl

/-- A decoded text encodes to the bytes it was read from, less a byte order mark. -/
theorem textDecode_cases {bytes : Bytes} {text : Str} (h : textDecode bytes = some text) :
    (byteOrderMark <+: bytes ∧ bytes = byteOrderMark ++ textEncode text) ∨
      (¬ byteOrderMark <+: bytes ∧ bytes = textEncode text) := by
  rw [textDecode, Option.map_eq_some_iff] at h
  obtain ⟨cs, hcs, rfl⟩ := h
  have hself : ∀ ds : List Char, textEncode (ds.flatMap utf16) = ds.flatMap String.utf8EncodeChar := by
    intro ds
    have h := scalars_append ds []
    simp only [List.append_nil, scalars] at h
    rw [textEncode, h]
  have hbytes : bytes = cs.toList.flatMap String.utf8EncodeChar := by
    have hget := ByteArray.utf8Encode_get_utf8Decode? (b := bytes.toByteArray) (h := by simp [hcs])
    simp only [hcs, Option.get_some, List.utf8Encode] at hget
    exact (List.toByteArray_inj.mp hget).symm
  cases hlist : cs.toList with
  | nil =>
    right
    rw [hlist] at hbytes
    rw [hbytes]
    exact ⟨by decide, rfl⟩
  | cons c rest =>
    rw [hlist, List.flatMap_cons] at hbytes
    by_cases hc : c = '\uFEFF'
    · left
      subst hc
      rw [dropByteOrderMark, if_pos rfl, hself]
      exact ⟨⟨_, hbytes.symm⟩, hbytes⟩
    · right
      rw [dropByteOrderMark, if_neg hc, hself, List.flatMap_cons]
      refine ⟨?_, hbytes⟩
      rintro ⟨tail, htail⟩
      rw [← htail, utf8_mark, ByteArray.utf8Decode?_utf8Encode_singleton_append,
        Option.map_eq_some_iff] at hcs
      obtain ⟨ds, -, hds⟩ := hcs
      have hhead := congrArg Array.toList hds
      rw [hlist, Array.toList_append] at hhead
      exact hc (List.cons.inj hhead).1.symm

/-- What an accepted byte string encodes back to. -/
theorem decode_reencodes {bytes : Bytes} {w : Json ν} (h : decodeCanonicalJson bytes = .ok w) :
    ∃ header, encodeCanonicalJson w = .ok header ∧
      (byteOrderMark <+: bytes ∧ bytes = byteOrderMark ++ header ∨
        ¬ byteOrderMark <+: bytes ∧ bytes = header) := by
  obtain ⟨text, htext, -, hcanonical⟩ := decode_ok.mp h
  refine ⟨textEncode text, ?_, textDecode_cases htext⟩
  simp only [encodeCanonicalJson, hcanonical, bind_ok]
  exact ⟨text, rfl, rfl⟩

theorem decode_distinct {bytes : Bytes} {w : Json ν} (h : decodeCanonicalJson bytes = .ok w) :
    distinctKeys w = true := by
  obtain ⟨text, -, hparse, -⟩ := decode_ok.mp h
  exact parse_distinct text w hparse

end Terminay.Protocol
