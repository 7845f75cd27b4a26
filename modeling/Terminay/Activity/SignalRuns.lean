import Terminay.Activity.SignalParser
import Terminay.Lib.Runs
import Terminay.Script.Integers

/-!
# Chunks of terminal output

Whatever the chunks, the parser ends where one push of all the bytes would have left it, with the
same signals, as long as no chunk cuts a character of a sequence.
-/

namespace Terminay.Activity
open Script

variable {ν : Type} [Engine ν]

structure Feed (ν : Type) where
  parser : IncrementalTerminalSignalParser
  fed : Bytes
  signals : List (ParsedSignal ν)

namespace Feed

def start (p : IncrementalTerminalSignalParser) : Feed ν := ⟨p, [], []⟩

def push (f : Feed ν) (chunk : Bytes) : Feed ν :=
  let pushed := f.parser.push (ν := ν) chunk
  ⟨pushed.1, f.fed ++ chunk, f.signals ++ pushed.2⟩

def run (f : Feed ν) (chunks : List Bytes) : Feed ν := Runs.after push f chunks

def Cuts (fed chunk : Bytes) : Prop :=
  ∃ d ∈ (decodeBytes none fed).1, ∃ b ∈ chunk.head?, d.Takes b

/-- A character that goes on in the chunk is no part of a sequence and begins none; a byte order
mark at the start of the chunk stands in plain text too. -/
def Aligned (f : Feed ν) (chunk : Bytes) : Prop :=
  (Cuts f.fed chunk → f.parser.inOsc = false ∧
    (decodeAll (decodeBytes none f.fed).1 chunk).head? ≠ some '\u009d') ∧
  ((decodeAll none chunk).head? = some '\uFEFF' →
    f.parser.inOsc = false ∧ f.parser.textEsc = false)

instance (fed chunk : Bytes) : Decidable (Cuts fed chunk) :=
  inferInstanceAs (Decidable (∃ d ∈ (decodeBytes none fed).1, ∃ b ∈ chunk.head?, d.Takes b))

instance (f : Feed ν) (chunk : Bytes) : Decidable (f.Aligned chunk) :=
  inferInstanceAs (Decidable ((_ → _ ∧ _) ∧ (_ → _ ∧ _)))

end Feed

namespace IncrementalTerminalSignalParser

variable {p : IncrementalTerminalSignalParser} {cs ds : List Char} {c : Char}

theorem consumeAll_append (p : IncrementalTerminalSignalParser) (cs ds : List Char) :
    p.consumeAll (ν := ν) (cs ++ ds) =
      (((p.consumeAll (ν := ν) cs).1.consumeAll (ν := ν) ds).1,
        (p.consumeAll cs).2 ++ ((p.consumeAll (ν := ν) cs).1.consumeAll ds).2) := by
  induction cs generalizing p with
  | nil => rfl
  | cons c cs ih => simp only [List.cons_append, consumeAll, ih, List.append_assoc]

theorem consume_text (hp : p.inOsc = false) (hc : c ≠ '\x1b' ∧ c ≠ '\u009d' ∧ c ≠ '\x07' ∧ c ≠ ']') :
    p.consume (ν := ν) c = ({ p with textEsc := false }, []) := by
  obtain ⟨hesc, hosc, hbel, hopen⟩ := hc
  rcases p with ⟨max, hmax, inOsc, textEsc, oscEsc, discarded, payload, bytes⟩
  obtain rfl : inOsc = false := hp
  cases textEsc <;> simp [consume, consumeText, plainText, hesc, hosc, hbel, hopen]

theorem consumeAll_text (hp : p.inOsc = false)
    (hc : c ≠ '\x1b' ∧ c ≠ '\u009d' ∧ c ≠ '\x07' ∧ c ≠ ']') (rest : List Char) :
    p.consumeAll (ν := ν) (c :: rest) =
      IncrementalTerminalSignalParser.consumeAll { p with textEsc := false } rest := by
  rw [consumeAll, consume_text hp hc]
  rfl

omit [Engine ν] in
theorem appendPayload_inOsc (p : IncrementalTerminalSignalParser) (c : Char) :
    (p.appendPayload c).inOsc = p.inOsc := by
  simp only [appendPayload]
  split_ifs <;> rfl

theorem consume_replacement (p : IncrementalTerminalSignalParser) :
    (p.consume (ν := ν) replacement).1.inOsc = p.inOsc := by
  by_cases hp : p.inOsc = false
  · rw [consume_text hp (by decide)]
  · have hesc : replacement ≠ '\x1b' ∧ replacement ≠ '\x07' ∧ replacement ≠ '\\' := by decide
    simp only [consume, if_neg hp, consumeOsc, plainOsc, if_neg hesc.1, if_neg hesc.2.1,
      if_neg hesc.2.2]
    split_ifs <;> simp only [appendPayload_inOsc]

theorem consume_mark (hp : p.inOsc = false) (htext : p.textEsc = false) :
    p.consume (ν := ν) '\uFEFF' = (p, []) := by
  rw [consume_text hp (by decide), ← htext]

theorem consumeAll_mark (hcs : cs.head? = some '\uFEFF' → p.inOsc = false ∧ p.textEsc = false) :
    p.consumeAll (ν := ν) (dropByteOrderMark cs) = p.consumeAll cs := by
  cases cs with
  | nil => rfl
  | cons c cs =>
    rw [dropByteOrderMark]
    by_cases hc : c = '\uFEFF'
    · obtain ⟨hp, htext⟩ := hcs (by rw [hc]; rfl)
      rw [if_pos hc, consumeAll, hc, consume_mark hp htext]
      rfl
    · rw [if_neg hc]

/-- In the text it makes no difference whether a character is read in parts, unless it begins a
sequence. -/
theorem consumeAll_cut {d : Begun} {xs : Bytes} (hp : p.inOsc = false)
    (hhead : (decodeAll (some d) xs).head? ≠ some '\u009d') :
    p.consumeAll (ν := ν) (decodeAll (some d) xs) =
      p.consumeAll (replacement :: decodeAll none xs) := by
  rw [consumeAll_text hp (by decide)]
  induction xs generalizing d with
  | nil => exact consumeAll_text hp (by decide) []
  | cons b xs ih =>
    by_cases hb : d.Takes b
    · have hagain : decodeAll none (b :: xs) = replacement :: decodeAll none xs := by
        rw [decodeAll_cons, decodeByte, lead_taken hb]
        rfl
      have hidle : IncrementalTerminalSignalParser.consumeAll (ν := ν) { p with textEsc := false }
          (replacement :: decodeAll none xs) =
          IncrementalTerminalSignalParser.consumeAll { p with textEsc := false } (decodeAll none xs) :=
        consumeAll_text (p := { p with textEsc := false }) hp (by decide) _
      rw [hagain, hidle]
      rw [decodeAll_cons, decodeByte, dif_pos hb] at hhead ⊢
      by_cases howed : d.owed ≤ 1
      · obtain ⟨hlast, hbeyond⟩ := next_last hb howed
        rw [hlast] at hhead ⊢
        have hc : Char.ofNat (d.codePoint * 64 + b.toNat % 64) ≠ '\u009d' := fun hc => by
          rw [hc] at hhead
          exact hhead rfl
        exact consumeAll_text hp ⟨ofNat_ne hbeyond (by decide), hc, ofNat_ne hbeyond (by decide),
          ofNat_ne hbeyond (by decide)⟩ _
      · obtain ⟨more, hmore⟩ := next_more hb howed
        rw [hmore] at hhead ⊢
        exact ih hhead
    · have hbroken : decodeAll (some d) (b :: xs) = replacement :: decodeAll none (b :: xs) :=
        decodeAll_broken fun k hk => by
          cases hk
          exact hb
      rw [hbroken, consumeAll_text hp (by decide)]

end IncrementalTerminalSignalParser

namespace Feed

open IncrementalTerminalSignalParser

variable {p : IncrementalTerminalSignalParser} {f : Feed ν}

/-- The parser stands where one reading of all the bytes leaves it. -/
def Whole (p : IncrementalTerminalSignalParser) (f : Feed ν) : Prop :=
  (f.parser, f.signals) = p.consumeAll (decodeAll none f.fed)

theorem push_whole (h : Whole p f) {chunk : Bytes} (haligned : f.Aligned chunk) :
    Whole p (f.push chunk) := by
  obtain ⟨hcut, hmark⟩ := haligned
  have hparser : f.parser = (p.consumeAll (ν := ν) (decodeAll none f.fed)).1 := congrArg Prod.fst h
  have hpush : f.parser.push (ν := ν) chunk = f.parser.consumeAll (decodeAll none chunk) :=
    consumeAll_mark hmark
  have hread : p.consumeAll (ν := ν) (decodeAll none (f.fed ++ chunk)) =
      ((f.parser.consumeAll (ν := ν) (decodeAll none chunk)).1,
        f.signals ++ (f.parser.consumeAll (decodeAll none chunk)).2) := by
    have hafter : p.consumeAll (ν := ν) (decodeAll none f.fed ++ decodeAll none chunk) =
        ((f.parser.consumeAll (ν := ν) (decodeAll none chunk)).1,
          f.signals ++ (f.parser.consumeAll (decodeAll none chunk)).2) := by
      rw [consumeAll_append, ← h]
    rw [← hafter, decodeAll_append]
    rcases hbegun : (decodeBytes none f.fed).1 with _ | d
    · have hfed : decodeAll none f.fed = (decodeBytes none f.fed).2 := by
        rw [decodeAll, hbegun, flush, List.append_nil]
      rw [hfed]
    · have hfed : decodeAll none f.fed = (decodeBytes none f.fed).2 ++ [replacement] := by
        rw [decodeAll, hbegun, flush]
      by_cases hcuts : Cuts f.fed chunk
      · obtain ⟨hosc, hhead⟩ := hcut hcuts
        have htext : (p.consumeAll (ν := ν) (decodeBytes none f.fed).2).1.inOsc = false := by
          rw [hparser, hfed, consumeAll_append] at hosc
          exact (consume_replacement _).symm.trans hosc
        rw [hbegun] at hhead
        rw [hfed, List.append_assoc, List.singleton_append, consumeAll_append, consumeAll_append,
          consumeAll_cut htext hhead]
      · have hbroken : decodeAll (some d) chunk = replacement :: decodeAll none chunk :=
          decodeAll_broken fun b hb htakes => hcuts ⟨d, hbegun, b, hb, htakes⟩
        rw [hbroken, hfed, List.append_assoc]
        rfl
  rw [Whole, push]
  dsimp only
  rw [hpush, hread]

theorem run_whole (h : Whole p f) {chunks : List Bytes}
    (haligned : Runs.Meets push Aligned f chunks) : Whole p (f.run chunks) := by
  have hstep : ∀ (f : Feed ν) (chunk : Bytes), Whole p f → f.Aligned chunk → Whole p (f.push chunk) :=
    fun _ _ hf hchunk => push_whole hf hchunk
  exact Runs.invariant_of_meets hstep h haligned

theorem run_fed (f : Feed ν) (chunks : List Bytes) :
    (f.run chunks).fed = f.fed ++ chunks.flatten := by
  induction chunks generalizing f with
  | nil => exact (List.append_nil _).symm
  | cons chunk chunks ih =>
    have hstep : (f.run (chunk :: chunks)).fed = ((f.push chunk).run chunks).fed := rfl
    rw [hstep, ih, List.flatten_cons, push, List.append_assoc]

/-- The signals returned so far are those of one push of everything fed so far. -/
def Invisible (p : IncrementalTerminalSignalParser) (f : Feed ν) : Prop :=
  f.signals = (p.push (ν := ν) f.fed).2

instance (p : IncrementalTerminalSignalParser) (f : Feed ν) : Decidable (Invisible p f) :=
  inferInstanceAs (Decidable (_ = _))

/-- Chunking is invisible in every run whose chunks cut no character of a sequence. -/
theorem feed_runs {maxPayloadBytes : Option ℤ} (hcreate : create maxPayloadBytes = .ok p)
    (chunks : List Bytes)
    (haligned : Runs.Meets push Aligned (start p : Feed ν) chunks) :
    ((start p : Feed ν).run chunks).fed = chunks.flatten ∧
      Invisible p ((start p : Feed ν).run chunks) := by
  have hidle : p.inOsc = false ∧ p.textEsc = false := by
    simp only [create] at hcreate
    split_ifs at hcreate
    cases hcreate
    exact ⟨rfl, rfl⟩
  have hwhole := run_whole (ν := ν) (p := p) (f := start p) rfl haligned
  refine ⟨run_fed _ chunks, ?_⟩
  rw [Invisible, IncrementalTerminalSignalParser.push, replacingDecode, consumeAll_mark fun _ => hidle]
  exact congrArg Prod.snd hwhole

def freshParser : IncrementalTerminalSignalParser :=
  { maxPayloadBytes := defaultMaxPayloadBytes
    maxPayloadBytes_pos := by decide
    inOsc := false
    textEsc := false
    oscEsc := false
    discarded := false
    payload := []
    payloadBytes := 0 }

theorem freshParser_create : create none = .ok freshParser := rfl

/-- `é` is cut in the text, and then a title between the bytes of its introducer and of its end. -/
theorem feed_runs_cut :
    Invisible freshParser ((start freshParser : Feed ℤ).run
      [[0xC3], [0xA9, 0x1B], [0x5D, 0x32, 0x3B, 0xC3, 0xA9], [0x1B], [0x5C]]) :=
  (feed_runs (ν := ℤ) freshParser_create
    [[0xC3], [0xA9, 0x1B], [0x5D, 0x32, 0x3B, 0xC3, 0xA9], [0x1B], [0x5C]] (by decide +kernel)).2

/-- The title `é`, cut between its two bytes, comes out as two replacement characters. -/
theorem title_cut : ¬ Invisible freshParser ((start freshParser : Feed ℤ).run
    [[0x1B, 0x5D, 0x32, 0x3B, 0xC3], [0xA9, 0x07]]) := by decide +kernel

end Feed

end Terminay.Activity
