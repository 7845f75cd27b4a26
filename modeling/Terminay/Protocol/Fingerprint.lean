import Terminay.Protocol.JsonUnique

/-!
# The fingerprint of a command

A command's contents are its operation, its payload, the revision it expects and its body.
-/

namespace Terminay.Protocol
open Script Workspace Lists

variable {ν : Type} [Engine ν]

/-- The contents of a command that was decoded from a frame. -/
structure CommandContents (ν : Type) [Engine ν] where
  operation : Str
  payload : Json ν
  expectedRevision : Option ν
  body : Bytes
  plain : Plain payload
  nested : assertJsonValue payload 1 = .ok ()

namespace CommandContents

def identity (c : CommandContents ν) : Json ν :=
  .obj [(js "operation", .str c.operation), (js "payload", c.payload),
    (js "expectedRevision", (c.expectedRevision.map Json.num).getD .null)]

def fingerprint (sha256 : Bytes → Str) (c : CommandContents ν) : Checked Str := do
  let text ← canonicalize c.identity
  .ok (sha256 (textEncode text ++ c.body))

/-- The same contents, whatever the order of the payload's fields. -/
def Same (a b : CommandContents ν) : Prop :=
  a.operation = b.operation ∧ alike a.payload b.payload = true ∧
    a.expectedRevision = b.expectedRevision ∧ a.body = b.body

instance (a b : CommandContents ν) : Decidable (Same a b) :=
  inferInstanceAs (Decidable (_ ∧ _ ∧ _ ∧ _))

theorem identity_asserted (c : CommandContents ν) : assertJsonValue c.identity 0 = .ok () := by
  rw [identity, assert_obj]
  refine ⟨by decide, fun e he => ?_⟩
  simp only [List.mem_cons, List.not_mem_nil, or_false] at he
  rcases he with rfl | rfl | rfl
  · rfl
  · exact c.nested
  · rcases c.expectedRevision with _ | n
    · rfl
    · rfl

omit [Engine ν] in
theorem plain_obj {fields : List (Str × Json ν)} (hkeys : (fields.map (·.1)).Nodup)
    (h : ∀ e ∈ fields, ownField e.1 = true ∧ Plain e.2) : Plain (.obj fields) := by
  refine ⟨(distinct_obj fields).mpr ⟨hkeys, fun e he => (h e he).2.1⟩, ?_⟩
  rw [← Bool.not_eq_true, ownsProto_obj]
  rintro ⟨e, he, hname | hproto⟩
  · rw [(h e he).1] at hname
    cases hname
  · rw [(h e he).2.2] at hproto
    cases hproto

theorem identity_plain (c : CommandContents ν) : Plain c.identity := by
  have hkeys : [js "operation", js "payload", js "expectedRevision"].Nodup ∧
      ∀ k ∈ [js "operation", js "payload", js "expectedRevision"], ownField k = true := by decide
  refine plain_obj hkeys.1 fun e he => ?_
  refine ⟨hkeys.2 e.1 (List.mem_map_of_mem he), ?_⟩
  simp only [List.mem_cons, List.not_mem_nil, or_false] at he
  rcases he with rfl | rfl | rfl
  · exact ⟨rfl, rfl⟩
  · exact c.plain
  · rcases c.expectedRevision with _ | n
    · exact ⟨rfl, rfl⟩
    · exact ⟨rfl, rfl⟩

theorem fingerprint_total (sha256 : Bytes → Str) (c : CommandContents ν) :
    c.fingerprint sha256 =
      .ok (sha256 (textEncode (serializeValidatedJson c.identity) ++ c.body)) := by
  rw [fingerprint, canonicalize, c.identity_asserted]
  rfl

end CommandContents

section Prefixes

section

omit [Engine ν]

theorem utf8_head {c d : Char} {x y : Bytes}
    (h : String.utf8EncodeChar c ++ x = String.utf8EncodeChar d ++ y) : c = d ∧ x = y := by
  have hread : ∀ (a : Char) (z : Bytes),
      (String.utf8EncodeChar a ++ z).toByteArray.utf8DecodeChar? 0 = some a := by
    intro a z
    rw [List.toByteArray_append]
    exact ByteArray.utf8DecodeChar?_utf8EncodeChar_append
  have hc := hread c x
  rw [h, hread d y] at hc
  cases hc
  exact ⟨rfl, List.append_cancel_left h⟩

theorem utf8_begins {cs ds : List Char} {x y : Bytes}
    (h : cs.flatMap String.utf8EncodeChar ++ x = ds.flatMap String.utf8EncodeChar ++ y) :
    cs <+: ds ∨ ds <+: cs := by
  induction cs generalizing ds with
  | nil => exact .inl List.nil_prefix
  | cons c cs ih =>
    cases ds with
    | nil => exact .inr List.nil_prefix
    | cons d ds =>
      simp only [List.flatMap_cons, List.append_assoc] at h
      obtain ⟨rfl, hrest⟩ := utf8_head h
      exact (ih hrest).imp (fun hp => List.cons_prefix_cons.mpr ⟨rfl, hp⟩)
        fun hp => List.cons_prefix_cons.mpr ⟨rfl, hp⟩

theorem textEncode_begins {s t : Str} (hs : Paired s) (ht : Paired t) {x y : Bytes}
    (h : textEncode s ++ x = textEncode t ++ y) : s <+: t ∨ t <+: s := by
  obtain ⟨cs, rfl⟩ := hs
  obtain ⟨ds, rfl⟩ := ht
  have hscalars : ∀ l : List Char, scalars (l.flatMap utf16) = l := fun l => by
    simpa [scalars] using scalars_append l []
  rw [textEncode, textEncode, hscalars, hscalars] at h
  refine (utf8_begins h).imp ?_ ?_
  · rintro ⟨rest, rfl⟩
    exact ⟨rest.flatMap utf16, by rw [List.flatMap_append]⟩
  · rintro ⟨rest, rfl⟩
    exact ⟨rest.flatMap utf16, by rw [List.flatMap_append]⟩

end

variable [LawfulEngine ν]

theorem object_reads {fields : List (Str × Json ν)} (hplain : Plain (.obj fields))
    (h : assertJsonValue (.obj fields) 0 = .ok ()) (total : ℕ) (rest : Str) :
    parseValue total 33 (serializeValidatedJson (.obj fields) ++ rest) =
      .ok (rebuilt (.obj fields), rest) := by
  rw [assert_obj] at h
  have hdistinct := (distinct_obj fields).mp hplain.1
  exact parseValue_obj total hdistinct.1
    (fun e he => parseValue_serialize total e.2 (hdistinct.2 e he) 1 32 rfl (h.2 e he)) rest

theorem object_begins {as bs : List (Str × Json ν)} (ha : Plain (.obj as)) (hb : Plain (.obj bs))
    (hasserted : assertJsonValue (.obj as) 0 = .ok ())
    (hasserted' : assertJsonValue (.obj bs) 0 = .ok ())
    (h : serializeValidatedJson (.obj as) <+: serializeValidatedJson (.obj bs)) :
    serializeValidatedJson (.obj as) = serializeValidatedJson (.obj bs) := by
  obtain ⟨rest, hrest⟩ := h
  have hread := object_reads ha hasserted 0 rest
  have hself := object_reads hb hasserted' 0 []
  rw [List.append_nil, ← hrest, hread, Except.ok.injEq, Prod.mk.injEq] at hself
  rw [← hrest, hself.2, List.append_nil]

theorem object_split {as bs : List (Str × Json ν)} (ha : Plain (.obj as)) (hb : Plain (.obj bs))
    (hasserted : assertJsonValue (.obj as) 0 = .ok ())
    (hasserted' : assertJsonValue (.obj bs) 0 = .ok ()) {x y : Bytes}
    (h : textEncode (serializeValidatedJson (.obj as)) ++ x =
      textEncode (serializeValidatedJson (.obj bs)) ++ y) :
    serializeValidatedJson (.obj as) = serializeValidatedJson (.obj bs) ∧ x = y := by
  have hsame : serializeValidatedJson (.obj as) = serializeValidatedJson (.obj bs) := by
    rcases textEncode_begins (serialize_paired _) (serialize_paired _) h with hp | hp
    · exact object_begins ha hb hasserted hasserted' hp
    · exact (object_begins hb ha hasserted' hasserted hp).symm
  rw [hsame] at h
  exact ⟨hsame, List.append_cancel_left h⟩

end Prefixes

section Normal

omit [Engine ν] in
theorem rebuilt_member {as bs : List (Str × Json ν)} (ha : Plain (.obj as)) (hb : Plain (.obj bs))
    (h : rebuilt (.obj as) = rebuilt (.obj bs)) {e : Str × Json ν} (he : e ∈ as) :
    ∃ d ∈ bs, d.1 = e.1 ∧ rebuilt e.2 = rebuilt d.2 := by
  rw [rebuilt_kept ha.2, rebuilt_kept hb.2, Json.obj.injEq] at h
  have hmem : (e.1, rebuilt e.2) ∈ (sortByKey bs).map fun d => (d.1, rebuilt d.2) := by
    rw [← h]
    exact List.mem_map.mpr ⟨e, mem_sortByKey.mpr he, rfl⟩
  obtain ⟨d, hd, heq⟩ := List.mem_map.mp hmem
  rw [Prod.mk.injEq] at heq
  exact ⟨d, mem_sortByKey.mp hd, heq.1, heq.2.symm⟩

theorem alike_of_rebuilt (a b : Json ν) (ha : Plain a) (hb : Plain b)
    (h : rebuilt a = rebuilt b) : alike a b = true := by
  induction a using Json.induct generalizing b with
  | scalar j harr hobj =>
    rw [rebuilt_scalar harr hobj] at h
    cases b with
    | arr items => exact absurd (h.trans (rebuilt_arr items)) (harr _)
    | obj fields => exact absurd (h.trans (rebuilt_obj fields)) (hobj _)
    | _ => simp [h, rebuilt, alike]
  | arr items ih =>
    rw [rebuilt_arr] at h
    cases b with
    | arr bs =>
      rw [rebuilt_arr, Json.arr.injEq] at h
      rw [alike_arr]
      have hitems : ∀ c ∈ items, Plain c :=
        fun c hc => ⟨(distinct_arr items).mp ha.1 c hc, ownsProto_items ha.2 c hc⟩
      have hothers : ∀ c ∈ bs, Plain c :=
        fun c hc => ⟨(distinct_arr bs).mp hb.1 c hc, ownsProto_items hb.2 c hc⟩
      clear ha hb
      induction items generalizing bs with
      | nil =>
        cases bs with
        | nil => exact .nil
        | cons d ds => cases h
      | cons c cs ihcs =>
        cases bs with
        | nil => cases h
        | cons d ds =>
          rw [List.map_cons, List.map_cons, List.cons.injEq] at h
          refine .cons (ih c List.mem_cons_self d (hitems c List.mem_cons_self)
            (hothers d List.mem_cons_self) h.1) ?_
          exact ihcs (fun e he => ih e (List.mem_cons_of_mem c he)) ds h.2
            (fun e he => hitems e (List.mem_cons_of_mem c he))
            fun e he => hothers e (List.mem_cons_of_mem d he)
    | obj fields =>
      rw [rebuilt_obj] at h
      cases h
    | _ => cases h
  | obj fields ih =>
    cases b with
    | obj bs =>
      have hlength : fields.length = bs.length := by
        have hlists := h
        rw [rebuilt_kept ha.2, rebuilt_kept hb.2, Json.obj.injEq] at hlists
        have hcount := congrArg List.length hlists
        rwa [List.length_map, List.length_map, (sortByKey_perm fields).length_eq,
          (sortByKey_perm bs).length_eq] at hcount
      rw [alike_obj]
      refine ⟨hlength, fun e he => ?_⟩
      obtain ⟨d, hd, hkey, hsame⟩ := rebuilt_member ha hb h he
      obtain ⟨-, hplain⟩ := ha.fields
      obtain ⟨hkeys, hplain'⟩ := hb.fields
      refine ⟨d.2, ?_, ih e he d.2 (hplain e he) (hplain' d hd) hsame⟩
      rw [← hkey]
      exact ofEntries_get hkeys hd
    | arr items =>
      rw [rebuilt_obj, rebuilt_arr] at h
      cases h
    | _ =>
      rw [rebuilt_obj] at h
      cases h

end Normal

namespace CommandContents

variable [LawfulEngine ν]

theorem same_of_text {a b : CommandContents ν}
    (h : serializeValidatedJson a.identity = serializeValidatedJson b.identity)
    (hbody : a.body = b.body) : Same a b := by
  have hrebuilt : rebuilt a.identity = rebuilt b.identity := by
    have ha := object_reads a.identity_plain a.identity_asserted 0 []
    have hb := object_reads b.identity_plain b.identity_asserted 0 []
    change parseValue 0 33 (serializeValidatedJson a.identity ++ []) = _ at ha
    change parseValue 0 33 (serializeValidatedJson b.identity ++ []) = _ at hb
    rw [h, hb, Except.ok.injEq, Prod.mk.injEq] at ha
    exact ha.1.symm
  have hmember : ∀ e ∈ [(js "operation", Json.str a.operation), (js "payload", a.payload),
      (js "expectedRevision", (a.expectedRevision.map Json.num).getD .null)],
      ∃ d ∈ [(js "operation", Json.str b.operation), (js "payload", b.payload),
        (js "expectedRevision", (b.expectedRevision.map Json.num).getD .null)],
        d.1 = e.1 ∧ rebuilt e.2 = rebuilt d.2 :=
    fun e he => rebuilt_member a.identity_plain b.identity_plain hrebuilt he
  simp only [List.mem_cons, List.not_mem_nil, or_false, forall_eq_or_imp, forall_eq,
    exists_eq_or_imp, exists_eq_left] at hmember
  obtain ⟨hoperation, hpayload, hrevision⟩ := hmember
  have hapart : js "operation" ≠ js "payload" ∧ js "operation" ≠ js "expectedRevision" ∧
      js "payload" ≠ js "expectedRevision" := by decide
  simp only [hapart.1, hapart.2.1, hapart.2.2, hapart.1.symm, hapart.2.1.symm, hapart.2.2.symm,
    false_and, true_and, or_false, false_or] at hoperation hpayload hrevision
  refine ⟨?_, alike_of_rebuilt _ _ a.plain b.plain hpayload, ?_, hbody⟩
  · simpa [rebuilt] using hoperation
  · rcases ha : a.expectedRevision with _ | m <;> rcases hb : b.expectedRevision with _ | n <;>
      simp_all [rebuilt]

omit [LawfulEngine ν] in
theorem text_of_same {a b : CommandContents ν} (h : Same a b) :
    serializeValidatedJson a.identity = serializeValidatedJson b.identity := by
  obtain ⟨hoperation, hpayload, hrevision, -⟩ := h
  have htext := alike_serialize a.payload b.payload a.plain.1 b.plain.1 hpayload
  rw [identity, identity, serializeValidatedJson, serializeValidatedJson, serializeFields_map,
    serializeFields_map, hoperation, hrevision]
  simp only [List.map_cons, htext]

/-- Where the hash has no collisions, fingerprints agree for the same contents only. -/
theorem fingerprint_same {sha256 : Bytes → Str} (hsha : Function.Injective sha256)
    (a b : CommandContents ν) :
    a.fingerprint sha256 = b.fingerprint sha256 ↔ Same a b := by
  rw [fingerprint_total, fingerprint_total, Except.ok.injEq, hsha.eq_iff]
  constructor
  · intro h
    obtain ⟨htext, hbody⟩ := object_split a.identity_plain b.identity_plain a.identity_asserted
      b.identity_asserted h
    exact same_of_text htext hbody
  · intro h
    rw [text_of_same h, h.2.2.2]

end CommandContents

end Terminay.Protocol
