import Terminay.Protocol.JsonText
import Terminay.Terminal.PresentationRecovery

/-!
# What the decoder accepts, and that it reads the encoder's bytes

The tail of whatever is accepted lies end to end from the position of the checkpoint to the head of
the output, with the bytes after the state, and its last grid is the grid of the session.
-/

namespace Terminay.Terminal.Presentation
open Script Protocol Holder Outcome

variable {ν : Type} [Engine ν]

def denoted : Numeric ν → Option ℚ
  | .finite n => some (Engine.value n)
  | _ => none

def Tiles : ℚ → List (TailEvent ν) → ℚ → Prop
  | start, [], stop => start = stop
  | start, .resize place _ :: events, stop => denoted place = some start ∧ Tiles start events stop
  | start, .output place next bytes :: events, stop => denoted place = some start ∧
      denoted next = some (start + bytes.length) ∧ Tiles (start + bytes.length) events stop

def TailEvent.gridAfter (g : TerminalDimensions ν) : TailEvent ν → TerminalDimensions ν
  | .resize _ dimensions => dimensions
  | .output _ _ _ => g

def lastGrid (g : TerminalDimensions ν) (tail : List (TailEvent ν)) : TerminalDimensions ν :=
  tail.foldl TailEvent.gridAfter g

theorem Tiles.append {start middle stop : ℚ} {es fs : List (TailEvent ν)}
    (h : Tiles start es middle) (h' : Tiles middle fs stop) : Tiles start (es ++ fs) stop := by
  induction es generalizing start with
  | nil =>
    rw [show start = middle from h]
    exact h'
  | cons e es ih =>
    cases e with
    | output place next bytes => exact ⟨h.1, h.2.1, ih h.2.2⟩
    | resize place dimensions => exact ⟨h.1, ih h.2⟩

theorem position_ok {value : Option (Json (Numeric ν))} {n : ν} (h : position value = .ok n) :
    value.bind Json.number? = some n ∧ Engine.value n = count n ∧ count n ≤ maxSafeInteger := by
  unfold position at h
  split at h
  · rename_i m hm
    split_ifs at h with hsafe
    cases h
    refine ⟨hm, ?_⟩
    unfold safeInteger? at hsafe
    dsimp only at hsafe
    split_ifs at hsafe with hint
    · have hpos : 0 ≤ (Engine.value n).num := by simpa using hsafe
      have hvalue : Engine.value n = ((Engine.value n).num : ℚ) := (Rat.den_eq_one_iff _).mp hint.1 |>.symm
      refine ⟨?_, ?_⟩
      · unfold count
        rw [hvalue]
        exact_mod_cast (Int.toNat_of_nonneg hpos).symm
      · unfold count
        omega
    · cases hsafe
  · cases h

theorem gridNumber_ok {value : Option (Json (Numeric ν))} {n : Numeric ν}
    (h : gridNumber value = .ok n) : ∃ m, value.bind Json.number? = some m ∧ n = .finite m := by
  unfold gridNumber at h
  split at h
  · rename_i m hm
    split_ifs at h
    cases h
    exact ⟨m, hm, rfl⟩
  · cases h

structure Sound (bytes front : Bytes) (start : ν) (first : TerminalDimensions ν) (r : Reading ν) :
    Prop where
  tiles : Tiles (Engine.value start) r.tail (Engine.value r.current)
  held : bytes.take r.offset = front ++ r.tail.flatMap TailEvent.carried
  within : r.offset ≤ bytes.length
  last : lastGrid first r.tail = r.currentGrid

section Tail

variable {bytes front : Bytes} {start head : ν} {first : TerminalDimensions ν} {r r' : Reading ν}
  {event : Json (Numeric ν)}

theorem readOutput_sound (h : Sound bytes front start first r)
    (hread : readOutput bytes head event r = .ok r') : Sound bytes front start first r' := by
  simp only [readOutput, bind_ok, refuseIf_ok] at hread
  obtain ⟨length, hlength, next, hnext, -, hchecks, -, -, hr⟩ := hread
  cases hr
  obtain ⟨-, hvalue, -⟩ := position_ok hlength
  simp only [not_or, not_lt, not_not] at hchecks
  obtain ⟨-, -, hsum, -, hfits⟩ := hchecks
  have hslice : ((bytes.drop r.offset).take (count length)).length = count length := by
    rw [List.length_take, List.length_drop]
    omega
  refine ⟨?_, ?_, hfits, ?_⟩
  · refine h.tiles.append ⟨rfl, ?_, ?_⟩
    · rw [hslice, denoted, hsum, hvalue]
    · rw [hslice, ← hvalue, ← hsum]
      rfl
  · rw [List.take_add, h.held, List.flatMap_append, List.append_assoc]
    simp [TailEvent.carried]
  · rw [lastGrid, List.foldl_append]
    exact h.last

theorem readResize_sound (h : Sound bytes front start first r)
    (hread : readResize event r = .ok r') : Sound bytes front start first r' := by
  obtain ⟨dimensions, -, hr⟩ := bind_ok.mp hread
  cases hr
  refine ⟨h.tiles.append ⟨rfl, rfl⟩, ?_, h.within, ?_⟩
  · rw [h.held, List.flatMap_append]
    simp [TailEvent.carried]
  · rw [lastGrid, List.foldl_append]
    rfl

theorem readEvent_sound (h : Sound bytes front start first r)
    (hread : readEvent bytes head r event = .ok r') : Sound bytes front start first r' := by
  obtain ⟨place, -, hread⟩ := bind_ok.mp hread
  obtain ⟨-, -, hread⟩ := bind_ok.mp hread
  dsimp only at hread
  split_ifs at hread
  · exact readResize_sound h hread
  · exact readOutput_sound h hread

theorem readEvents_sound (events : List (Json (Numeric ν))) (h : Sound bytes front start first r)
    (hread : events.foldlM (readEvent bytes head) r = .ok r') :
    Sound bytes front start first r' := by
  induction events generalizing r with
  | nil =>
    cases hread
    exact h
  | cons event events ih =>
    rw [List.foldlM_cons] at hread
    obtain ⟨s, hs, hread⟩ := bind_ok.mp hread
    exact ih (readEvent_sound h hs) hread

end Tail

theorem readHeader_ok {bytes : Bytes} {headerLength : ℕ} {header : Json (Numeric ν)}
    (h : readHeader bytes = .ok (headerLength, header)) :
    bytes.take 4 = uint32 headerLength ∧ 4 + headerLength ≤ bytes.length := by
  obtain ⟨_, hlength, h⟩ := bind_ok.mp h
  obtain ⟨_, hheader, h⟩ := bind_ok.mp h
  obtain ⟨text, -, h⟩ := bind_ok.mp h
  obtain ⟨j, -, h⟩ := bind_ok.mp h
  cases h
  rw [refuseIf_ok] at hlength hheader
  have hfour : 4 ≤ bytes.length := by omega
  refine ⟨?_, by omega⟩
  have hsplit := uint32_uint32At hfour
  have htake := congrArg (List.take 4) hsplit
  rw [htake]
  exact List.take_left' rfl

structure Accepted (bytes : Bytes) (sessionId : Str) (v : TerminalPresentationRecovery ν) :
    Prop where
  session : v.sessionId = sessionId
  /-- The bytes are a header, the state and what the tail carries. -/
  layout : ∃ header : Bytes,
    bytes = uint32 header.length ++ header ++ v.state ++ v.tail.flatMap TailEvent.carried
  tiles : ∃ start stop, denoted v.position = some start ∧ denoted v.headPosition = some stop ∧
    Tiles start v.tail stop
  last : sameGrid (lastGrid v.checkpointDimensions v.tail) v.dimensions = true

theorem accepted_of_decode {bytes : Bytes} {sessionId : Str} {v : TerminalPresentationRecovery ν}
    (h : decodePresentationRecovery bytes sessionId = .ok v) : Accepted bytes sessionId v := by
  obtain ⟨⟨headerLength, header⟩, hheader, h⟩ := bind_ok.mp h
  obtain ⟨events, -, h⟩ := bind_ok.mp h
  obtain ⟨start, hstart, h⟩ := bind_ok.mp h
  obtain ⟨head, hhead, h⟩ := bind_ok.mp h
  obtain ⟨_, -, h⟩ := bind_ok.mp h
  obtain ⟨checkpointDimensions, -, h⟩ := bind_ok.mp h
  obtain ⟨dimensions, -, h⟩ := bind_ok.mp h
  obtain ⟨stateLength, -, h⟩ := bind_ok.mp h
  obtain ⟨_, hfits, h⟩ := bind_ok.mp h
  obtain ⟨r, hr, h⟩ := bind_ok.mp h
  obtain ⟨_, hends, h⟩ := bind_ok.mp h
  cases h
  rw [refuseIf_ok] at hfits hends
  simp only [not_or, not_lt, not_not, Bool.not_eq_false] at hfits hends
  obtain ⟨-, -, hfits⟩ := hfits
  obtain ⟨hcurrent, hoffset, hgrid⟩ := hends
  obtain ⟨hlength, hfour⟩ := readHeader_ok hheader
  have hinit : Sound bytes (bytes.take (4 + headerLength + count stateLength)) start
      checkpointDimensions ⟨start, 4 + headerLength + count stateLength, 0, checkpointDimensions, []⟩ :=
    ⟨rfl, (List.append_nil _).symm, hfits, rfl⟩
  have hsound := readEvents_sound events hinit hr
  refine ⟨rfl, ⟨(bytes.drop 4).take headerLength, ?_⟩, ⟨_, _, rfl, rfl, ?_⟩, ?_⟩
  · have hheld := hsound.held
    rw [hoffset, List.take_length] at hheld
    have htake : ((bytes.drop 4).take headerLength).length = headerLength := by
      rw [List.length_take, List.length_drop]
      omega
    have hfront : bytes.take (4 + headerLength + count stateLength) =
        uint32 headerLength ++ (bytes.drop 4).take headerLength ++
          (bytes.drop (4 + headerLength)).take (count stateLength) := by
      rw [List.take_add, List.take_add, hlength]
    rw [htake, ← hfront]
    exact hheld
  · rw [← hcurrent]
    exact hsound.tiles
  · rw [hsound.last]
    exact hgrid

/-! ## The encoder's bytes -/

omit [Engine ν] in
theorem number_parsed {x : Numeric ν} {n : ν} (h : (numberJson x).parsed.number? = some n) :
    x = .finite n := by
  cases x with
  | finite m =>
    cases h
    rfl
  | infinite positive => cases h
  | nan => cases h

theorem position_number {x : Numeric ν} {n : ν}
    (h : position (some (numberJson x).parsed) = .ok n) : x = .finite n :=
  number_parsed (position_ok h).1

theorem grid_dimensions {d d' : TerminalDimensions ν}
    (h : grid (some (dimensionsJson d).parsed) = .ok d') : d' = d := by
  obtain ⟨cols, hcols, h⟩ := bind_ok.mp h
  obtain ⟨rows, hrows, h⟩ := bind_ok.mp h
  cases h
  obtain ⟨c, hc, rfl⟩ := gridNumber_ok hcols
  obtain ⟨r, hr, rfl⟩ := gridNumber_ok hrows
  have hc' : d.cols = .finite c := number_parsed hc
  have hr' : d.rows = .finite r := number_parsed hr
  rw [← hc', ← hr']

variable [ExactEngine ν]

theorem position_length {bytes : Bytes} {n : ν} (hsmall : bytes.length ≤ maxSafeInteger)
    (h : position (some (lengthJson bytes).parsed) = .ok n) :
    count n = bytes.length ∧ Engine.value n = bytes.length := by
  obtain ⟨hn, hvalue, -⟩ := position_ok h
  have hliteral : Engine.literal ((bytes.length : ℕ) : ℚ) = n := Option.some.inj hn
  have hexact := ExactEngine.value_literal (ν := ν) bytes.length hsmall
  rw [hliteral] at hexact
  rw [hexact] at hvalue
  exact ⟨(Nat.cast_injective hvalue).symm, hexact⟩

section Tail

variable {bytes more : Bytes} {head : ν} {r r' : Reading ν}

theorem readEvent_written (e : TailEvent ν) (hsmall : bytes.length ≤ maxSafeInteger)
    (hbytes : bytes.drop r.offset = e.carried ++ more)
    (h : readEvent bytes head r (eventJson e).parsed = .ok r') :
    r'.tail = r.tail ++ [e] ∧ bytes.drop r'.offset = more := by
  obtain ⟨n, hplace, hchecked⟩ := bind_ok.mp h
  obtain ⟨_, hcurrent, hread⟩ := bind_ok.mp hchecked
  clear h hchecked
  rw [refuseIf_ok, not_not] at hcurrent
  have hn : n = r.current := ExactEngine.value_injective hcurrent
  subst hn
  cases e with
  | resize place dimensions =>
    have htype : ((eventJson (.resize place dimensions)).parsed.property "type").bind Json.str? =
        some (js "resize") := rfl
    dsimp only at hread
    rw [htype, if_pos rfl] at hread
    obtain ⟨d, hd, hr⟩ := bind_ok.mp hread
    obtain rfl := Except.ok.inj hr
    have hplace' : place = .finite r.current := position_number hplace
    rw [hplace', ← grid_dimensions hd]
    exact ⟨rfl, hbytes⟩
  | output place next carried =>
    have htype : ((eventJson (.output place next carried)).parsed.property "type").bind
        Json.str? = some (js "output") := rfl
    dsimp only at hread
    rw [htype, if_neg (by decide), if_pos rfl] at hread
    simp only [readOutput, bind_ok, refuseIf_ok] at hread
    obtain ⟨length, hlength, next', hnext, -, -, -, -, hr⟩ := hread
    obtain rfl := Except.ok.inj hr
    have hfits : carried.length ≤ maxSafeInteger := by
      have htotal := congrArg List.length hbytes
      rw [List.length_drop, List.length_append, TailEvent.carried] at htotal
      omega
    obtain ⟨hcount, -⟩ := position_length hfits hlength
    have hplace' : place = .finite r.current := position_number hplace
    have hnext' : next = .finite next' := position_number hnext
    rw [TailEvent.carried] at hbytes
    refine ⟨?_, ?_⟩
    · rw [hcount, hbytes, List.take_left, hplace', hnext']
    · rw [hcount, ← List.drop_drop, hbytes, List.drop_left]

theorem readEvents_written (tail : List (TailEvent ν)) (hsmall : bytes.length ≤ maxSafeInteger)
    (hbytes : bytes.drop r.offset = tail.flatMap TailEvent.carried ++ more)
    (h : (tail.map fun e => (eventJson e).parsed).foldlM (readEvent bytes head) r = .ok r') :
    r'.tail = r.tail ++ tail := by
  induction tail generalizing r with
  | nil =>
    cases h
    exact (List.append_nil _).symm
  | cons e tail ih =>
    rw [List.map_cons, List.foldlM_cons] at h
    obtain ⟨s, hs, h⟩ := bind_ok.mp h
    rw [List.flatMap_cons, List.append_assoc] at hbytes
    obtain ⟨htail, hmore⟩ := readEvent_written e hsmall hbytes hs
    rw [ih hmore h, htail, List.append_assoc]
    rfl

end Tail

section Distinct

omit [Engine ν] [ExactEngine ν] in
theorem numberJson_distinct (x : Numeric ν) : distinctKeys (numberJson x) = true := by
  cases x <;> rfl

omit [Engine ν] [ExactEngine ν] in
theorem dimensionsJson_distinct (d : TerminalDimensions ν) :
    distinctKeys (dimensionsJson d) = true := by
  have hkeys : [js "cols", js "rows"].Nodup := by decide
  refine (distinct_obj _).mpr ⟨hkeys, ?_⟩
  simp only [List.forall_mem_cons]
  exact ⟨numberJson_distinct _, numberJson_distinct _, by simp⟩

omit [ExactEngine ν] in
theorem eventJson_distinct (e : TailEvent ν) : distinctKeys (eventJson e) = true := by
  cases e with
  | resize place dimensions =>
    have hkeys : [js "type", js "position", js "dimensions"].Nodup := by decide
    refine (distinct_obj _).mpr ⟨hkeys, ?_⟩
    simp only [List.forall_mem_cons]
    exact ⟨rfl, numberJson_distinct _, dimensionsJson_distinct _, by simp⟩
  | output place next bytes =>
    have hkeys : [js "type", js "position", js "nextPosition", js "byteLength"].Nodup := by decide
    refine (distinct_obj _).mpr ⟨hkeys, ?_⟩
    simp only [List.forall_mem_cons]
    exact ⟨rfl, numberJson_distinct _, numberJson_distinct _, rfl, by simp⟩

omit [ExactEngine ν] in
theorem headerJson_distinct (v : TerminalPresentationRecovery ν) :
    distinctKeys (headerJson v) = true := by
  have htail : distinctKeys (.arr (v.tail.map eventJson)) = true := by
    refine (distinct_arr _).mpr fun j hj => ?_
    obtain ⟨e, -, rfl⟩ := List.mem_map.mp hj
    exact eventJson_distinct e
  have hkeys : [js "sessionId", js "formatVersion", js "position", js "headPosition",
      js "checkpointDimensions", js "dimensions", js "stateByteLength", js "tail"].Nodup := by
    decide
  refine (distinct_obj _).mpr ⟨hkeys, ?_⟩
  simp only [List.forall_mem_cons]
  exact ⟨rfl, rfl, numberJson_distinct _, numberJson_distinct _, dimensionsJson_distinct _,
    dimensionsJson_distinct _, rfl, htail, by simp⟩

end Distinct

section Written

variable {v w : TerminalPresentationRecovery ν} {header rest : Bytes}

theorem readHeader_written (hsmall : header.length ≤ maxHeader)
    (htotal : (uint32 header.length ++ header ++ rest).length ≤ maxPresentationRecoveryBytes)
    (hheader : header = textEncode (headerJson v).stringify) :
    readHeader (uint32 header.length ++ header ++ rest) =
      .ok (header.length, (headerJson v).parsed) := by
  have hlength : (uint32 header.length ++ header ++ rest).length =
      4 + header.length + rest.length := by
    simp only [uint32, List.length_append, List.length_cons, List.length_nil]
  have hat : uint32At (uint32 header.length ++ header ++ rest) 0 = header.length := by
    rw [List.append_assoc]
    unfold maxHeader at hsmall
    exact uint32At_uint32 (by omega) _
  have hslice : ((uint32 header.length ++ header ++ rest).drop 4).take header.length = header := by
    rw [List.append_assoc]
    exact List.take_left
  refine bind_ok.mpr ⟨(), refuseIf_ok.mpr (by omega), ?_⟩
  dsimp only
  rw [hat, hslice]
  refine bind_ok.mpr ⟨(), refuseIf_ok.mpr (by omega), ?_⟩
  refine bind_ok.mpr ⟨(headerJson v).stringify, ?_, ?_⟩
  · rw [demand_ok, hheader, decode_stringify]
  · refine bind_ok.mpr ⟨(headerJson v).parsed, ?_, rfl⟩
    rw [demand_ok, parse_stringify (headerJson_distinct v)]

omit [ExactEngine ν] in
theorem listedEvents_written {events : List (Json (Numeric ν))} {sessionId : Str}
    (h : listedEvents (headerJson v).parsed sessionId = .ok events) :
    sessionId = v.sessionId ∧ events = v.tail.map fun e => (eventJson e).parsed := by
  obtain ⟨_, hsession, hchecked⟩ := bind_ok.mp h
  obtain ⟨_, -, hlisted⟩ := bind_ok.mp hchecked
  obtain ⟨listed, htail, hbounded⟩ := bind_ok.mp hlisted
  obtain ⟨_, -, hevents⟩ := bind_ok.mp hbounded
  obtain rfl := Except.ok.inj hevents
  rw [refuseIf_ok, not_not] at hsession
  rw [demand_ok] at htail
  have hitems : some (mapItems Numeric.finite (v.tail.map eventJson)) = some listed := htail
  refine ⟨(Option.some.inj hsession).symm, ?_⟩
  rw [← Option.some.inj hitems, mapItems_map, List.map_map]
  rfl

theorem decode_written {bytes : Bytes} (h : encodePresentationRecovery v = .ok bytes) :
    decodePresentationRecovery bytes v.sessionId = .ok v := by
  obtain ⟨_, hlimits, hwritten⟩ := bind_ok.mp h
  obtain ⟨_, htotal, hdecoded⟩ := bind_ok.mp hwritten
  obtain ⟨w, hw, hbytes⟩ := bind_ok.mp hdecoded
  obtain rfl := Except.ok.inj hbytes
  rw [hw]
  congr 1
  rw [refuseIf_ok] at hlimits htotal
  simp only [not_or, not_lt] at hlimits htotal
  obtain ⟨⟨headerLength, header⟩, hheader, hrest⟩ := bind_ok.mp hw
  rw [List.append_assoc] at hheader
  rw [readHeader_written hlimits.1 (by rwa [← List.append_assoc]) rfl] at hheader
  obtain ⟨rfl, rfl⟩ := Prod.mk.inj (Except.ok.inj hheader)
  obtain ⟨events, hevents, h₁⟩ := bind_ok.mp hrest
  obtain ⟨-, rfl⟩ := listedEvents_written hevents
  obtain ⟨start, hstart, h₂⟩ := bind_ok.mp h₁
  obtain ⟨head, hhead, h₃⟩ := bind_ok.mp h₂
  obtain ⟨_, -, h₄⟩ := bind_ok.mp h₃
  obtain ⟨checkpointDimensions, hcheckpoint, h₅⟩ := bind_ok.mp h₄
  obtain ⟨dimensions, hdimensions, h₆⟩ := bind_ok.mp h₅
  obtain ⟨stateLength, hstate, h₇⟩ := bind_ok.mp h₆
  obtain ⟨_, -, h₈⟩ := bind_ok.mp h₇
  obtain ⟨r, hr, h₉⟩ := bind_ok.mp h₈
  obtain ⟨_, -, hw'⟩ := bind_ok.mp h₉
  obtain rfl := Except.ok.inj hw'
  have hlimit : (maxPresentationRecoveryBytes : ℕ) ≤ maxSafeInteger := by decide
  have hsmall := htotal.trans hlimit
  have hstateSmall : v.state.length ≤ maxSafeInteger := by
    simp only [List.length_append] at hsmall
    omega
  obtain ⟨hcount, -⟩ := position_length hstateSmall hstate
  have hposition : v.position = .finite start := position_number hstart
  have hheadPosition : v.headPosition = .finite head := position_number hhead
  have hcheckpoint' : checkpointDimensions = v.checkpointDimensions := grid_dimensions hcheckpoint
  have hdimensions' : dimensions = v.dimensions := grid_dimensions hdimensions
  have hfour : ∀ n, (uint32 n).length = 4 := fun n => rfl
  generalize htext : textEncode (headerJson v).stringify = text at *
  have hafter : ∀ more : Bytes,
      (uint32 text.length ++ text ++ more).drop (4 + text.length) = more := by
    intro more
    refine List.drop_left' ?_
    rw [List.length_append, hfour]
  have hcarried : (uint32 text.length ++ text ++ v.state ++ v.tail.flatMap TailEvent.carried).drop
      (4 + text.length + count stateLength) = v.tail.flatMap TailEvent.carried ++ [] := by
    rw [List.append_nil, List.append_assoc (uint32 text.length ++ text), ← List.drop_drop, hafter,
      hcount, List.drop_left]
  have htail := readEvents_written v.tail hsmall hcarried hr
  rw [hcount, List.append_assoc (uint32 text.length ++ text), hafter, List.take_left, htail,
    ← hposition, ← hheadPosition, hcheckpoint', hdimensions']
  rfl

end Written

theorem sameGrid_eq {a b : TerminalDimensions ν} (h : sameGrid a b = true) : a = b := by
  unfold sameGrid at h
  split at h
  · rename_i c r c' r'
    obtain ⟨hcols, hrows⟩ := of_decide_eq_true h
    rw [ExactEngine.value_injective hcols, ExactEngine.value_injective hrows]
  · cases h

/-- What the encoder accepts reads back as it was, and of whatever the decoder accepts, the tail
lies end to end from the checkpoint to the head and ends in the grid of the session. -/
theorem recovery_codec (ν : Type) [Engine ν] [ExactEngine ν] :
    (∀ (v : TerminalPresentationRecovery ν) (bytes : Bytes),
      encodePresentationRecovery v = .ok bytes →
        decodePresentationRecovery bytes v.sessionId = .ok v) ∧
    ∀ (bytes : Bytes) (sessionId : Str) (v : TerminalPresentationRecovery ν),
      decodePresentationRecovery bytes sessionId = .ok v →
        Accepted bytes sessionId v ∧ lastGrid v.checkpointDimensions v.tail = v.dimensions := by
  refine ⟨fun v bytes => decode_written, fun bytes sessionId v h => ?_⟩
  have haccepted := accepted_of_decode h
  exact ⟨haccepted, sameGrid_eq haccepted.last⟩

/-! ## One recovery -/

instance exactIntegers : ExactEngine ℤ where
  value_injective := Int.cast_injective
  value_literal n _ := by
    change (((n : ℚ).num / ((n : ℚ).den : ℤ) : ℤ) : ℚ) = n
    simp

def oneByte : TerminalPresentationRecovery ℤ where
  sessionId := js "s"
  position := .finite 0
  headPosition := .finite 1
  checkpointDimensions := ⟨.finite 80, .finite 24⟩
  dimensions := ⟨.finite 80, .finite 24⟩
  state := [7]
  tail := [.output (.finite 0) (.finite 1) [65]]

def oneByteHeader : Bytes := textEncode (headerJson oneByte).stringify

def oneByteBytes : Bytes := uint32 oneByteHeader.length ++ oneByteHeader ++ [7] ++ [65]

def oneByteRead : Reading ℤ :=
  ⟨1, 4 + oneByteHeader.length + 1 + 1, 1, ⟨.finite 80, .finite 24⟩, oneByte.tail⟩

theorem oneByte_output : readOutput oneByteBytes 1 (eventJson (.output (.finite 0) (.finite 1) [65])).parsed
    ⟨0, 4 + oneByteHeader.length + 1, 0, ⟨.finite 80, .finite 24⟩, []⟩ = .ok oneByteRead := by
  have hcount : count (1 : ℤ) = 1 := by decide +kernel
  have hslice : (oneByteBytes.drop (4 + oneByteHeader.length + 1)).take 1 = [65] := by
    decide +kernel
  refine bind_ok.mpr ⟨1, by decide +kernel, bind_ok.mpr ⟨1, by decide +kernel, ?_⟩⟩
  refine bind_ok.mpr ⟨(), refuseIf_ok.mpr (by decide +kernel), ?_⟩
  refine bind_ok.mpr ⟨(), refuseIf_ok.mpr (by decide +kernel), ?_⟩
  rw [hcount, hslice]
  rfl

theorem oneByte_decoded : decodePresentationRecovery oneByteBytes (js "s") = .ok oneByte := by
  have hread : readHeader oneByteBytes =
      .ok (oneByteHeader.length, (headerJson oneByte).parsed) := by
    have hwritten : readHeader (uint32 oneByteHeader.length ++ oneByteHeader ++ ([7] ++ [65])) = _ :=
      readHeader_written (by decide +kernel) (by decide +kernel) rfl
    rwa [← List.append_assoc] at hwritten
  have hcount : count (1 : ℤ) = 1 := by decide +kernel
  have hstate : (oneByteBytes.drop (4 + oneByteHeader.length)).take 1 = [7] := by decide +kernel
  refine bind_ok.mpr ⟨_, hread, ?_⟩
  refine bind_ok.mpr ⟨[(eventJson (.output (.finite 0) (.finite 1) [65])).parsed], rfl, ?_⟩
  refine bind_ok.mpr ⟨0, rfl, bind_ok.mpr ⟨1, rfl, ?_⟩⟩
  refine bind_ok.mpr ⟨(), refuseIf_ok.mpr (by decide +kernel), ?_⟩
  refine bind_ok.mpr ⟨⟨.finite 80, .finite 24⟩, rfl, bind_ok.mpr ⟨⟨.finite 80, .finite 24⟩, rfl, ?_⟩⟩
  refine bind_ok.mpr ⟨1, rfl, bind_ok.mpr ⟨(), refuseIf_ok.mpr (by decide +kernel), ?_⟩⟩
  refine bind_ok.mpr ⟨oneByteRead, ?_, ?_⟩
  · rw [List.foldlM_cons]
    refine bind_ok.mpr ⟨oneByteRead, ?_, rfl⟩
    refine bind_ok.mpr ⟨0, rfl, bind_ok.mpr ⟨(), refuseIf_ok.mpr (by decide +kernel), ?_⟩⟩
    have htype : ((eventJson (.output (.finite 0) (.finite 1) [65]) : Json ℤ).parsed.property
        "type").bind Json.str? = some (js "output") := rfl
    dsimp only
    rw [htype, if_neg (by decide), if_pos rfl, hcount]
    exact oneByte_output
  · refine bind_ok.mpr ⟨(), refuseIf_ok.mpr (by decide +kernel), ?_⟩
    rw [hcount, hstate]
    rfl

theorem oneByte_encoded : encodePresentationRecovery oneByte = .ok oneByteBytes :=
  bind_ok.mpr ⟨(), refuseIf_ok.mpr (by decide +kernel), bind_ok.mpr
    ⟨(), refuseIf_ok.mpr (by decide +kernel), bind_ok.mpr ⟨oneByte, oneByte_decoded, rfl⟩⟩⟩

theorem recovery_codec_oneByte : decodePresentationRecovery oneByteBytes (js "s") = .ok oneByte :=
  (recovery_codec ℤ).1 oneByte oneByteBytes oneByte_encoded

end Terminay.Terminal.Presentation
