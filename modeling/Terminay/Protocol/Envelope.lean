import Terminay.Protocol.JsonDecoding

/-!
# Envelopes

`validateEnvelope` accepts a record with a known type, no field its type does not
have, the fields its type requires, and every field well formed. A field's check
depends on its name, not on the type of the envelope.
-/

namespace Terminay.Protocol
open Script Workspace Outcome

inductive EnvelopeType where
  | clientHello | serverHello | capabilities | incompatibleVersion | query | queryResult | command
  | commandResult | event | eventResync | streamOpen | streamChunk | streamAck | streamClose
  | binaryStart | binaryChunk | binaryAck | binaryComplete | binaryFailure | cancel | error
  deriving DecidableEq

namespace EnvelopeType

def name : EnvelopeType → String
  | .clientHello => "client_hello"
  | .serverHello => "server_hello"
  | .capabilities => "capabilities"
  | .incompatibleVersion => "incompatible_version"
  | .query => "query"
  | .queryResult => "query_result"
  | .command => "command"
  | .commandResult => "command_result"
  | .event => "event"
  | .eventResync => "event_resync"
  | .streamOpen => "stream_open"
  | .streamChunk => "stream_chunk"
  | .streamAck => "stream_ack"
  | .streamClose => "stream_close"
  | .binaryStart => "binary_start"
  | .binaryChunk => "binary_chunk"
  | .binaryAck => "binary_ack"
  | .binaryComplete => "binary_complete"
  | .binaryFailure => "binary_failure"
  | .cancel => "cancel"
  | .error => "error"

def all : List EnvelopeType :=
  [.clientHello, .serverHello, .capabilities, .incompatibleVersion, .query, .queryResult, .command,
    .commandResult, .event, .eventResync, .streamOpen, .streamChunk, .streamAck, .streamClose,
    .binaryStart, .binaryChunk, .binaryAck, .binaryComplete, .binaryFailure, .cancel, .error]

def ofText (s : Str) : Option EnvelopeType := all.find? fun t => js t.name == s

def schema : EnvelopeType → List String
  | .clientHello =>
    ["type", "protocolMin", "protocolMax", "clientId", "clientVersion", "capabilities", "limits"]
  | .serverHello =>
    ["type", "protocolVersion", "serverId", "serverVersion", "clientId", "capabilities", "limits",
      "authScope"]
  | .capabilities => ["type", "capabilities", "limits"]
  | .incompatibleVersion =>
    ["type", "supportedMin", "supportedMax", "requestedMin", "requestedMax", "error"]
  | .query => ["type", "queryId", "operation", "payload", "deadlineMs"]
  | .queryResult => ["type", "queryId", "ok", "result", "error", "bodyLength"]
  | .command =>
    ["type", "commandId", "correlationId", "operation", "payload", "expectedRevision", "deadlineMs"]
  | .commandResult => ["type", "commandId", "correlationId", "ok", "result", "error", "revision"]
  | .event => ["type", "subscriptionId", "revision", "cursor", "event", "payload"]
  | .eventResync => ["type", "subscriptionId", "revision", "cursor", "snapshot"]
  | .streamOpen => ["type", "streamId", "sessionId", "position", "contentType"]
  | .streamChunk => ["type", "streamId", "position", "final"]
  | .streamAck => ["type", "streamId", "position"]
  | .streamClose => ["type", "streamId", "position", "error"]
  | .binaryStart => ["type", "transferId", "size", "contentType", "checksum"]
  | .binaryChunk => ["type", "transferId", "position", "final"]
  | .binaryAck => ["type", "transferId", "position"]
  | .binaryComplete => ["type", "transferId", "position", "checksum"]
  | .binaryFailure => ["type", "transferId", "position", "error"]
  | .cancel => ["type", "correlationId", "reason"]
  | .error => ["type", "correlationId", "error"]

def required : EnvelopeType → List String
  | .clientHello =>
    ["protocolMin", "protocolMax", "clientId", "clientVersion", "capabilities", "limits"]
  | .serverHello =>
    ["protocolVersion", "serverId", "serverVersion", "clientId", "capabilities", "limits",
      "authScope"]
  | .capabilities => ["capabilities", "limits"]
  | .incompatibleVersion => ["supportedMin", "supportedMax", "error"]
  | .query => ["queryId", "operation", "payload"]
  | .queryResult => ["queryId", "ok"]
  | .command => ["commandId", "correlationId", "operation", "payload"]
  | .commandResult => ["commandId", "correlationId", "ok"]
  | .event => ["subscriptionId", "revision", "cursor", "event", "payload"]
  | .eventResync => ["subscriptionId", "revision", "cursor"]
  | .streamOpen => ["streamId", "sessionId", "position"]
  | .streamChunk => ["streamId", "position"]
  | .streamAck => ["streamId", "position"]
  | .streamClose => ["streamId", "position"]
  | .binaryStart => ["transferId", "contentType"]
  | .binaryChunk => ["transferId", "position"]
  | .binaryAck => ["transferId", "position"]
  | .binaryComplete => ["transferId", "position"]
  | .binaryFailure => ["transferId", "position", "error"]
  | .cancel => ["correlationId"]
  | .error => ["error"]

end EnvelopeType

variable {ν : Type} [Engine ν]

def isLowerUnit (u : UInt16) : Bool := 97 ≤ u && u ≤ 122

def isOperationUnit (u : UInt16) : Bool :=
  isLowerUnit u || isDigit u || u == unit '.' || u == unit '_' || u == unit ':' || u == unit '-'

def operationPattern (most : ℕ) : Str → Bool
  | [] => false
  | u :: rest => isLowerUnit u && rest.length ≤ most && rest.all isOperationUnit

/-- `^max[A-Z]` -/
def limitPattern (s : Str) : Bool :=
  (js "max").isPrefixOf s && (s.drop 3).head?.any fun u => 65 ≤ u && u ≤ 90

def isText (p : Str → Bool) (j : Json ν) : Bool := j.str?.any p

def isInteger (p : ℤ → Bool) (j : Json ν) : Bool := (j.num?.bind safeInteger?).any p

def isBoolean : Json ν → Bool
  | .bool _ => true
  | _ => false

def maxDeadlineMs : ℤ := 24 * 60 * 60 * 1000

def checkId (key : String) (j : Json ν) : Checked Unit :=
  refuseIf (isText idPattern j = false) (js "invalid " ++ js key)

def checkUInt (key : String) (j : Json ν) : Checked Unit :=
  refuseIf (isInteger (fun z => decide (0 ≤ z)) j = false) (js "invalid " ++ js key)

def checkOperation (j : Json ν) : Checked Unit :=
  refuseIf (isText (operationPattern 255) j = false) (js "invalid operation")

def checkDeadline (j : Json ν) : Checked Unit :=
  refuseIf (isInteger (fun z => decide (0 < z ∧ z ≤ maxDeadlineMs)) j = false) (js "invalid deadline")

def checkBoolean (key : String) (j : Json ν) : Checked Unit :=
  refuseIf (isBoolean j = false) (js "invalid " ++ js key)

def checkAuthScope (j : Json ν) : Checked Unit :=
  refuseIf (isText (fun s => [js "none", js "read", js "write", js "admin"].contains s) j = false)
    (js "invalid auth scope")

def areCapabilities (j : Json ν) : Bool :=
  j.items?.any fun items => items.length ≤ 256 && items.all (isText (operationPattern 127))

def checkCapabilities (j : Json ν) : Checked Unit :=
  refuseIf (areCapabilities j = false) (js "invalid capabilities")

def checkContentType (j : Json ν) : Checked Unit :=
  refuseIf (isText (fun s => s.length ≤ 256) j = false) (js "invalid content type")

/-- `if (key in value) check(value[key])`. -/
def checkField (fields : Fields ν) (key : String) (check : Json ν → Checked Unit) : Checked Unit :=
  match fields.at key with
  | none => .ok ()
  | some j => check j

def checkLimit (e : Str × Json ν) : Checked Unit :=
  refuseIf (limitPattern e.1 = false ∨ isInteger (fun z => decide (0 < z)) e.2 = false)
    (js "invalid limit " ++ e.1)

def checkLimitsObject (j : Json ν) : Checked Unit := do
  let fields ← demand j.object? (js "invalid limits")
  each checkLimit fields.toList

def errorCodes : List Str :=
  [js "validation", js "unauthorized", js "forbidden", js "not_found", js "conflict",
    js "cancelled", js "deadline", js "resource", js "unavailable", js "incompatible",
    js "internal"]

def errorFields : List Str :=
  [js "code", js "message", js "details", js "retryable", js "supportedMin", js "supportedMax"]

def checkError (j : Json ν) : Checked Unit := do
  let fields ← demand j.object? (js "invalid protocol error")
  refuseIf ((fields.at "code").any (isText errorCodes.contains) = false ∨
      (fields.at "message").any (isText fun s => decide (0 < s.length ∧ s.length ≤ 4096)) = false)
    (js "invalid protocol error")
  checkField fields "details" fun j => assertJsonValue j 0
  checkField fields "retryable" fun j => refuseIf (isBoolean j = false) (js "invalid retryable flag")
  checkField fields "supportedMin" (checkUInt "supportedMin")
  checkField fields "supportedMax" (checkUInt "supportedMax")
  each (fun key => refuseIf (key ∉ errorFields) (js "unknown error field " ++ key)) fields.keys

def idFields : List String :=
  ["clientId", "serverId", "queryId", "commandId", "correlationId", "subscriptionId", "streamId",
    "sessionId", "transferId"]

def uintFields : List String :=
  ["revision", "expectedRevision", "position", "size", "bodyLength", "protocolMin", "protocolMax",
    "protocolVersion", "supportedMin", "supportedMax", "requestedMin", "requestedMax"]

def fieldChecks : List (String × (Json ν → Checked Unit)) :=
  idFields.map (fun key => (key, checkId key)) ++ uintFields.map (fun key => (key, checkUInt key)) ++
    [("operation", checkOperation)] ++
    ["payload", "result", "snapshot"].map (fun key => (key, fun j => assertJsonValue j 0)) ++
    [("deadlineMs", checkDeadline), ("ok", checkBoolean "ok"), ("final", checkBoolean "final"),
      ("authScope", checkAuthScope), ("capabilities", checkCapabilities),
      ("limits", checkLimitsObject), ("contentType", checkContentType), ("error", checkError)]

def isResult (type : EnvelopeType) : Bool := type = .queryResult || type = .commandResult

def checkCommon (fields : Fields ν) (type : EnvelopeType) : Checked Unit := do
  each (fun key => refuseIf (fields.at key = none) (js type.name ++ js " missing " ++ js key))
    type.required
  each (fun c => checkField fields c.1 c.2) fieldChecks
  refuseIf (isResult type = true ∧ fields.at "ok" = some (.bool true) ∧ fields.at "error" ≠ none)
    (js "successful result has error")
  refuseIf (isResult type = true ∧ fields.at "ok" = some (.bool false) ∧ fields.at "error" = none)
    (js "failed result has no error")

omit [Engine ν] in
def envelopeType? (fields : Fields ν) : Option EnvelopeType :=
  ((fields.at "type").bind Json.str?).bind EnvelopeType.ofText

def validateEnvelope (value : Json ν) : Checked (Fields ν × EnvelopeType) := do
  let fields ← demand value.object? (js "unknown envelope type")
  let type ← demand (envelopeType? fields) (js "unknown envelope type")
  each (fun key => refuseIf (key ∉ type.schema.map js)
    (js "unknown " ++ js type.name ++ js " field " ++ key)) fields.keys
  checkCommon fields type
  .ok (fields, type)

section Rebuilding

def Plain (j : Json ν) : Prop := distinctKeys j = true ∧ ownsProto j = false

def Rebuilds (s t : Fields ν) : Prop := ∀ k : Str, t[k]? = s[k]?.map rebuilt

def Survives (check : Json ν → Checked Unit) : Prop :=
  ∀ j, Plain j → check j = .ok () → check (rebuilt j) = .ok ()

section

omit [Engine ν]

theorem rebuilt_str (j : Json ν) : (rebuilt j).str? = j.str? := by
  cases j <;> simp [rebuilt, Json.str?]

theorem rebuilt_num (j : Json ν) : (rebuilt j).num? = j.num? := by
  cases j <;> simp [rebuilt, Json.num?]

theorem rebuilt_boolean (j : Json ν) : isBoolean (rebuilt j) = isBoolean j := by
  cases j <;> simp [rebuilt, isBoolean]

theorem rebuilt_items (j : Json ν) : (rebuilt j).items? = j.items?.map (List.map rebuilt) := by
  cases j with
  | arr items => rw [rebuilt_arr, Json.items?, Json.items?, Option.map_some]
  | _ => simp [rebuilt, Json.items?]

theorem rebuilt_text (p : Str → Bool) (j : Json ν) : isText p (rebuilt j) = isText p j := by
  rw [isText, rebuilt_str, isText]

end

theorem rebuilt_integer (p : ℤ → Bool) (j : Json ν) : isInteger p (rebuilt j) = isInteger p j := by
  rw [isInteger, rebuilt_num, isInteger]

section

omit [Engine ν]

theorem rebuilt_capabilities (j : Json ν) : areCapabilities (rebuilt j) = areCapabilities j := by
  rw [areCapabilities, rebuilt_items, areCapabilities]
  cases j.items? with
  | none => rfl
  | some items => simp [rebuilt_text, Function.comp_def]

theorem ofEntries_mem {fields : List (Str × Json ν)} {k : Str} {j : Json ν}
    (h : (Table.ofEntries fields)[k]? = some j) : (k, j) ∈ fields := by
  have hall : ∀ t : Fields ν, (fields.foldl (fun t e => t.insert e.1 e.2) t)[k]? = some j →
      (k, j) ∈ fields ∨ t[k]? = some j := by
    clear h
    induction fields with
    | nil => exact fun t ht => .inr ht
    | cons e es ih =>
      intro t ht
      rcases ih _ ht with hmem | hrest
      · exact .inl (List.mem_cons_of_mem e hmem)
      · rw [Table.get_insert] at hrest
        by_cases hk : e.1 = k
        · rw [if_pos hk] at hrest
          left
          rw [← hk, ← Option.some.inj hrest]
          exact List.mem_cons_self
        · rw [if_neg hk] at hrest
          exact .inr hrest
  rcases hall ∅ h with hmem | hempty
  · exact hmem
  · simp at hempty

theorem ofEntries_get {fields : List (Str × Json ν)} (hkeys : (fields.map (·.1)).Nodup)
    {e : Str × Json ν} (he : e ∈ fields) : (Table.ofEntries fields)[e.1]? = some e.2 := by
  apply Table.get_foldl_insert_mem fields ∅ e.1 e.2 he
  intro w hw
  exact (Prod.mk.inj (List.inj_on_of_nodup_map hkeys hw he rfl)).2

theorem Plain.fields {fields : List (Str × Json ν)} (h : Plain (.obj fields)) :
    (fields.map (·.1)).Nodup ∧ ∀ e ∈ fields, Plain e.2 := by
  obtain ⟨hdistinct, hproto⟩ := h
  rw [distinct_obj] at hdistinct
  exact ⟨hdistinct.1, fun e he => ⟨hdistinct.2 e he, (ownsProto_fields hproto e he).2⟩⟩

theorem rebuilt_object {j : Json ν} (h : Plain j) {s : Fields ν} (hs : j.object? = some s) :
    (∀ (k : Str) a, s[k]? = some a → Plain a) ∧ ∃ t, (rebuilt j).object? = some t ∧ Rebuilds s t := by
  cases j with
  | obj fields =>
    cases hs
    obtain ⟨hkeys, hplain⟩ := h.fields
    refine ⟨fun k a hk => hplain _ (ofEntries_mem hk), ?_⟩
    rw [rebuilt_kept h.2]
    refine ⟨_, rfl, fun k => ?_⟩
    have hkeys' : ((((Lists.sortByKey fields).map fun e => (e.1, rebuilt e.2))).map (·.1)).Nodup := by
      rw [List.map_map]
      exact ((Lists.sortByKey_perm fields).map _).nodup_iff.mpr hkeys
    rcases hk : (Table.ofEntries fields)[k]? with _ | a
    · rcases hk' : (Table.ofEntries ((Lists.sortByKey fields).map fun e => (e.1, rebuilt e.2)))[k]?
        with _ | b
      · exact hk'
      · obtain ⟨e, he, heq⟩ := List.mem_map.mp (ofEntries_mem hk')
        have hget := ofEntries_get hkeys (Lists.mem_sortByKey.mp he)
        rw [(Prod.mk.inj heq).1, hk] at hget
        cases hget
    · have hmem := Lists.mem_sortByKey.mpr (ofEntries_mem hk)
      exact ofEntries_get hkeys' (List.mem_map.mpr ⟨(k, a), hmem, rfl⟩)
  | _ => cases hs

theorem Rebuilds.field {s t : Fields ν} (h : Rebuilds s t) (key : String) :
    t.at key = (s.at key).map rebuilt := h (js key)

theorem Rebuilds.keys {s t : Fields ν} (h : Rebuilds s t) {k : Str} : k ∈ t.keys ↔ k ∈ s.keys := by
  rw [Table.mem_keys, Table.mem_keys, h k]
  cases s[k]? <;> simp

theorem Rebuilds.checkField {s t : Fields ν} (h : Rebuilds s t)
    (hplain : ∀ (k : Str) a, s[k]? = some a → Plain a) {key : String} {check : Json ν → Checked Unit}
    (hcheck : Survives check) (hs : checkField s key check = .ok ()) :
    checkField t key check = .ok () := by
  rw [Protocol.checkField] at hs ⊢
  rw [h.field]
  rcases hkey : s.at key with _ | j
  · rfl
  · rw [hkey] at hs
    exact hcheck j (hplain (js key) j hkey) hs

theorem survives_of {p : Json ν → Bool} (hp : ∀ j, p (rebuilt j) = p j) (message : Str) :
    Survives fun j => refuseIf (p j = false) message := by
  intro j _ h
  simp only [hp]
  exact h

end

theorem checkLimitsObject_survives : Survives (checkLimitsObject : Json ν → Checked Unit) := by
  intro j hj h
  simp only [checkLimitsObject, bind_ok, demand_ok, each_ok] at h ⊢
  obtain ⟨s, hs, hall⟩ := h
  obtain ⟨-, t, ht, hst⟩ := rebuilt_object hj hs
  refine ⟨t, ht, fun e he => ?_⟩
  have hget := Table.mem_entries.mp he
  rw [hst e.1, Option.map_eq_some_iff] at hget
  obtain ⟨a, ha, heq⟩ := hget
  have hlimit := hall (e.1, a) (Table.mem_entries.mpr ha)
  rwa [checkLimit, ← heq, rebuilt_integer]

theorem checkError_survives : Survives (checkError : Json ν → Checked Unit) := by
  intro j hj h
  simp only [checkError, bind_ok, demand_ok, each_ok, refuseIf_ok] at h ⊢
  obtain ⟨s, hs, u, hhead, u', hdetails, u'', hretry, v, hmin, v', hmax, hkeys⟩ := h
  obtain ⟨hplain, t, ht, hst⟩ := rebuilt_object hj hs
  refine ⟨t, ht, (), ?_, (), hst.checkField hplain (fun j _ => rebuilt_asserted j 0) hdetails, (),
    hst.checkField hplain (survives_of rebuilt_boolean _) hretry, (), hst.checkField hplain (survives_of (rebuilt_integer _) _) hmin, (),
    hst.checkField hplain (survives_of (rebuilt_integer _) _) hmax, fun key hkey => hkeys key (hst.keys.mp hkey)⟩
  rw [hst.field, hst.field]
  simpa [Option.any_map, Function.comp_def, rebuilt_text] using hhead

theorem fieldChecks_survive : ∀ c ∈ (fieldChecks : List (String × (Json ν → Checked Unit))),
    Survives c.2 := by
  intro c hc
  simp only [fieldChecks, List.mem_append, List.mem_map, List.mem_cons,
    List.not_mem_nil, or_false] at hc
  rcases hc with ((((⟨key, -, rfl⟩ | ⟨key, -, rfl⟩) | rfl) | ⟨key, -, rfl⟩) | hc)
  · exact survives_of (rebuilt_text _) _
  · exact survives_of (rebuilt_integer _) _
  · exact survives_of (rebuilt_text _) _
  · exact fun j _ => rebuilt_asserted j 0
  · rcases hc with rfl | rfl | rfl | rfl | rfl | rfl | rfl | rfl
    · exact survives_of (rebuilt_integer _) _
    · exact survives_of rebuilt_boolean _
    · exact survives_of rebuilt_boolean _
    · exact survives_of (rebuilt_text _) _
    · exact survives_of rebuilt_capabilities _
    · exact checkLimitsObject_survives
    · exact survives_of (rebuilt_text _) _
    · exact checkError_survives

omit [Engine ν] in
theorem Rebuilds.type {s t : Fields ν} (h : Rebuilds s t) : envelopeType? t = envelopeType? s := by
  rw [envelopeType?, h.field, envelopeType?]
  cases s.at "type" with
  | none => rfl
  | some j => simp [rebuilt_str]

omit [Engine ν] in
theorem rebuilt_bool (j : Json ν) (b : Bool) : rebuilt j = .bool b ↔ j = .bool b := by
  cases j <;> simp [rebuilt]

theorem validateEnvelope_rebuilt {j : Json ν} (hj : Plain j) {s : Fields ν} {type : EnvelopeType}
    (h : validateEnvelope j = .ok (s, type)) :
    ∃ t, validateEnvelope (rebuilt j) = .ok (t, type) ∧ Rebuilds s t := by
  simp only [validateEnvelope, checkCommon, bind_ok, demand_ok, each_ok, refuseIf_ok] at h ⊢
  obtain ⟨s', hs, type', htype, u, hkeys, u', ⟨v, hrequired, v', hfields, w, hgood, hbad⟩, heq⟩ := h
  obtain ⟨rfl, rfl⟩ := Prod.mk.inj (Except.ok.inj heq)
  obtain ⟨hplain, t, ht, hst⟩ := rebuilt_object hj hs
  have hpresent : ∀ key, t.at key = none ↔ s'.at key = none := by
    intro key
    rw [hst.field, Option.map_eq_none_iff]
  have hok : ∀ b, t.at "ok" = some (.bool b) ↔ s'.at "ok" = some (.bool b) := by
    intro b
    rw [hst.field, Option.map_eq_some_iff]
    constructor
    · rintro ⟨a, ha, hab⟩
      rwa [(rebuilt_bool a b).mp hab] at ha
    · exact fun ha => ⟨_, ha, rfl⟩
  refine ⟨t, ⟨t, ht, type', hst.type.trans htype, (), fun key hkey => hkeys key (hst.keys.mp hkey),
    (), ⟨(), ?_, (), ?_, (), ?_, ?_⟩, rfl⟩, hst⟩
  · exact fun key hkey hnone => hrequired key hkey ((hpresent key).mp hnone)
  · exact fun c hc => hst.checkField hplain (fieldChecks_survive c hc) (hfields c hc)
  · rw [hok, ne_eq, hpresent]
    exact hgood
  · rw [hok, hpresent]
    exact hbad

end Rebuilding

end Terminay.Protocol
