import Terminay.Holder.Frames
import Terminay.Protocol.ChannelFragments

/-!
# The filter of a desktop stream

The filter takes whole client messages from the bytes of a desktop stream, checks them and forwards
those that its mode allows. A push that throws ends the stream: its caller closes the filter.
-/

namespace Terminay.Bots
open Script Protocol Outcome
open Holder (uint32At uint32At_append)

def BOT_STREAM_INPUT_BYTES : ℕ := 4 * 1024 * 1024
def BOT_DESKTOP_CLIPBOARD_BYTES : ℕ := 1024 * 1024

inductive BotDesktopMode where
  | viewOnly | control
  deriving DecidableEq

def messageSize (b : Bytes) : Except Str (Option ℕ) :=
  match b with
  | [] => .ok none
  | type :: _ =>
    match type.toNat with
    | 0 => .ok (some 20)
    | 2 =>
      if b.length < 4 then .ok none
      else if 64 < getUint16 b 2 then .error (js "too many RFB encodings")
      else .ok (some (4 + 4 * getUint16 b 2))
    | 3 => .ok (some 10)
    | 4 => .ok (some 8)
    | 5 => .ok (some 6)
    | 6 =>
      if b.length < 8 then .ok none
      else if BOT_DESKTOP_CLIPBOARD_BYTES < uint32At b 4 then .error (js "RFB clipboard too large")
      else .ok (some (8 + uint32At b 4))
    | _ => .error (js "unknown RFB client message")

/-- One colour of a pixel format, with the bits that the colours before it take. -/
def checkColour (format : Bytes) (bpp mask i : ℕ) : Except Str ℕ := do
  let maximum := getUint16 format (4 + i * 2)
  let shift := (format.getD (10 + i) 0).toNat
  refuseIf (maximum = 0 ∨ maximum &&& (maximum + 1) ≠ 0 ∨ bpp ≤ shift)
    (js "invalid RFB colour field")
  let field := maximum <<< shift
  refuseIf (1 <<< bpp ≤ field ∨ mask &&& field ≠ 0) (js "invalid RFB colour mask")
  .ok (mask ||| field)

def validatePixelFormat (format : Bytes) : Except Str Unit := do
  let bpp := (format.getD 0 0).toNat
  let depth := (format.getD 1 0).toNat
  refuseIf (bpp ∉ [8, 16, 32] ∨ depth < 1 ∨ bpp < depth ∨ 1 < (format.getD 2 0).toNat ∨
    1 < (format.getD 3 0).toNat) (js "invalid RFB pixel format")
  if format.getD 3 0 = 0 then .ok ()
  else do
    let _ ← [0, 1, 2].foldlM (checkColour format bpp) 0
    .ok ()

def messageType (m : Bytes) : ℕ := (m.getD 0 0).toNat

def checkMessage (m : Bytes) : Except Str Unit :=
  match messageType m with
  | 0 => validatePixelFormat (m.drop 4)
  | 3 => refuseIf (1 < (m.getD 1 0).toNat) (js "invalid RFB update request")
  | 4 => refuseIf (1 < (m.getD 1 0).toNat) (js "invalid RFB key event")
  | _ => .ok ()

/-- The message that the bytes begin with and the bytes after it, unless it is not there yet. -/
def readMessage (b : Bytes) : Except Str (Option (Bytes × Bytes)) := do
  match ← messageSize b with
  | none => .ok none
  | some size =>
    if b.length < size then .ok none
    else do
      checkMessage (b.take size)
      .ok (some (b.take size, b.drop size))

def int32At (b : Bytes) (offset : ℕ) : ℤ :=
  if uint32At b offset < 2 ^ 31 then uint32At b offset else uint32At b offset - 2 ^ 32

def int32 (e : ℤ) : Bytes := uint32 (e % 2 ^ 32).toNat

def relayedEncodings : List ℤ :=
  [0, 1, 2, 5, 7, 16, -223, -224, -239, -307, -308] ++
    (List.range 10).map (fun i : ℕ => -23 - (i : ℤ)) ++
    (List.range 10).map (fun i : ℕ => -247 - (i : ℤ))

def keptEncodings (m : Bytes) : List ℤ :=
  ((List.range (getUint16 m 2)).map fun i => int32At m (4 + i * 4)).filter (· ∈ relayedEncodings)

def allowedEncodings (m : Bytes) : Bytes :=
  2 :: 0 :: uint16 (keptEncodings m).length ++ (keptEncodings m).flatMap int32

def BotDesktopMode.forwards (mode : BotDesktopMode) (m : Bytes) : Bytes :=
  if messageType m = 2 then allowedEncodings m
  else if mode = .control ∨ messageType m = 0 ∨ messageType m = 3 then m
  else []

/-! ## Reading in chunks -/

theorem uint16At_append {s : Bytes} {i : ℕ} (h : i + 2 ≤ s.length) (t : Bytes) :
    getUint16 (s ++ t) i = getUint16 s i := by
  have hget : ∀ j, j < s.length → (s ++ t).getD j 0 = s.getD j 0 := by
    intro j hj
    simp [List.getD_eq_getElem?_getD, List.getElem?_append_left hj]
  rw [getUint16, getUint16, hget i (by omega), hget (i + 1) (by omega)]

/-- Once the size is told, or refused, more bytes do not change it. -/
theorem messageSize_append {b : Bytes} (h : messageSize b ≠ .ok none) (t : Bytes) :
    messageSize (b ++ t) = messageSize b := by
  cases b with
  | nil => exact absurd rfl h
  | cons type b =>
    rw [List.cons_append]
    unfold messageSize at h ⊢
    simp only [← List.cons_append]
    split
    · rfl
    · have hlength : 4 ≤ (type :: b).length := by
        by_contra hshort
        simp_all
      have hmore : 4 ≤ (type :: b ++ t).length := by
        rw [List.length_append]
        omega
      rw [uint16At_append (by omega), if_neg (not_lt.mpr hmore), if_neg (not_lt.mpr hlength)]
    · rfl
    · rfl
    · rfl
    · have hlength : 8 ≤ (type :: b).length := by
        by_contra hshort
        simp_all
      have hmore : 8 ≤ (type :: b ++ t).length := by
        rw [List.length_append]
        omega
      rw [uint32At_append (by omega), if_neg (not_lt.mpr hmore), if_neg (not_lt.mpr hlength)]
    · rfl

theorem messageSize_pos {b : Bytes} {n : ℕ} (h : messageSize b = .ok (some n)) :
    0 < n ∧ n ≤ 8 + BOT_DESKTOP_CLIPBOARD_BYTES := by
  unfold messageSize at h
  split at h
  · cases h
  · split at h
    all_goals try split_ifs at h
    all_goals cases h
    all_goals simp only [BOT_DESKTOP_CLIPBOARD_BYTES] at *
    all_goals omega

theorem readMessage_ok {b m rest : Bytes} (h : readMessage b = .ok (some (m, rest))) :
    ∃ n, messageSize b = .ok (some n) ∧ n ≤ b.length ∧ checkMessage m = .ok () ∧
      m = b.take n ∧ rest = b.drop n := by
  obtain ⟨size, hsize, h⟩ := bind_ok.mp h
  cases size with
  | none => cases h
  | some n =>
    dsimp only at h
    split_ifs at h with hshort
    · cases h
    · obtain ⟨_, hcheck, h⟩ := bind_ok.mp h
      cases h
      exact ⟨n, hsize, not_lt.mp hshort, hcheck, rfl, rfl⟩

theorem readMessage_whole {b : Bytes} {n : ℕ} (hsize : messageSize b = .ok (some n))
    (hlength : n ≤ b.length) :
    readMessage b = (checkMessage (b.take n)).map fun _ => some (b.take n, b.drop n) := by
  rw [readMessage, hsize]
  change (if b.length < n then _ else _) = _
  rw [if_neg (not_lt.mpr hlength)]
  cases checkMessage (b.take n) <;> rfl

theorem message_extends {b m rest : Bytes} (h : readMessage b = .ok (some (m, rest))) (t : Bytes) :
    readMessage (b ++ t) = .ok (some (m, rest ++ t)) := by
  obtain ⟨n, hsize, hlength, hcheck, rfl, rfl⟩ := readMessage_ok h
  have hsize' : messageSize (b ++ t) = .ok (some n) := by
    rw [messageSize_append (by rw [hsize]; simp), hsize]
  rw [readMessage_whole hsize' (by simp; omega), List.take_append_of_le_length hlength,
    List.drop_append_of_le_length hlength, hcheck]
  rfl

theorem refusal_extends {b : Bytes} {e : Str} (h : readMessage b = .error e) (t : Bytes) :
    readMessage (b ++ t) = .error e := by
  cases hsize : messageSize b with
  | error e' =>
    have hsize' : messageSize (b ++ t) = .error e' := by
      rw [messageSize_append (by rw [hsize]; simp), hsize]
    rw [readMessage, hsize] at h
    rw [readMessage, hsize']
    exact h
  | ok size =>
    cases size with
    | none =>
      rw [readMessage, hsize] at h
      cases h
    | some n =>
      have hlength : n ≤ b.length := by
        by_contra hshort
        rw [readMessage, hsize] at h
        change (if b.length < n then _ else _) = _ at h
        rw [if_pos (not_le.mp hshort)] at h
        cases h
      have hsize' : messageSize (b ++ t) = .ok (some n) := by
        rw [messageSize_append (by rw [hsize]; simp), hsize]
      rw [readMessage_whole hsize hlength] at h
      rw [readMessage_whole hsize' (by simp; omega), List.take_append_of_le_length hlength]
      rw [Framing.map_error] at h ⊢
      exact h

theorem message_shorter {b m rest : Bytes} (h : readMessage b = .ok (some (m, rest))) :
    rest.length < b.length := by
  obtain ⟨n, hsize, hlength, -, -, rfl⟩ := readMessage_ok h
  have hpos := (messageSize_pos hsize).1
  rw [List.length_drop]
  omega

def messageReader : Framing.Reader UInt8 Bytes Str where
  read := readMessage
  idle := rfl
  shorter _ _ _ := message_shorter
  extends_frame _ _ _ t h := message_extends h t
  extends_refusal _ _ t h := refusal_extends h t

/-! ## The filter -/

/-- The loop of `push`: what it forwards, or why it throws, and the bytes that are left. -/
def filterLoop (mode : BotDesktopMode) (b : Bytes) : Except Str Bytes × Bytes :=
  match _h : readMessage b with
  | .error e => (.error e, b)
  | .ok none => (.ok [], b)
  | .ok (some (m, rest)) =>
    ((filterLoop mode rest).1.map (mode.forwards m ++ ·), (filterLoop mode rest).2)
termination_by b.length
decreasing_by all_goals exact message_shorter _h

structure BotRfbClientFilter where
  mode : BotDesktopMode
  pending : Bytes

namespace BotRfbClientFilter

def new (mode : BotDesktopMode) : BotRfbClientFilter := ⟨mode, []⟩

def push (f : BotRfbClientFilter) (bytes : Bytes) : Except Str Bytes × BotRfbClientFilter :=
  if BOT_STREAM_INPUT_BYTES < f.pending.length + bytes.length then
    (.error (js "RFB reassembly limit exceeded"), f)
  else
    let looped := filterLoop f.mode (f.pending ++ bytes)
    (looped.1, { f with pending := looped.2 })

/-- What the pushes of a stream forward, which of them return, and why the one after them throws. -/
structure Fed where
  forwarded : Bytes
  pushed : List Bytes
  thrown : Option Str
  deriving DecidableEq

def feed (f : BotRfbClientFilter) : List Bytes → Fed
  | [] => ⟨[], [], none⟩
  | chunk :: chunks =>
    match f.push chunk with
    | (.error e, _) => ⟨[], [], some e⟩
    | (.ok forwarded, f) =>
      let later := feed f chunks
      ⟨forwarded ++ later.forwarded, chunk :: later.pushed, later.thrown⟩

end BotRfbClientFilter

end Terminay.Bots
