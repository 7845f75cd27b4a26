import Terminay.Lib.Disk
import Terminay.Lib.Runs
import Terminay.Script.Unicode

/-!
# State files that survive a crash

A save writes a fresh temporary file, flushes it, keeps the current file as the previous
copy, renames the temporary over the target and flushes the directory. A canonical file
that cannot be read is set aside and answered from its previous copy.
-/

namespace Terminay.Files
open Script

/-- Temporary and set-aside files have generated names. -/
inductive StatePath where
  | target
  | previous
  | temporary (name : ℕ)
  | aside (name : ℕ)
  deriving DecidableEq

def chunks : List ℕ → Bytes → List Bytes
  | [], bytes => if bytes = [] then [] else [bytes]
  | size :: sizes, bytes =>
    if bytes = [] then [] else bytes.take (size + 1) :: chunks sizes (bytes.drop (size + 1))

/-- Empty, or every byte zero. -/
def isBlank (bytes : Bytes) : Bool := bytes.all fun byte => byte = 0

def writeFlushedSync (name : ℕ) (bytes : Bytes) (sizes : List ℕ) : List (FileOp StatePath) :=
  Disk.writeFlushed (.temporary name) (chunks sizes bytes)

def keepPreviousSync (d : Disk StatePath) (name : ℕ) (sizes : List ℕ) : List (FileOp StatePath) :=
  match d.read .target with
  | none => []
  | some current =>
    if isBlank current = true then []
    else
      writeFlushedSync name current sizes ++
        [.rename (.temporary name) .previous, .remove (.temporary name)]

/-- `kept`: how the previous copy is written, where one is kept. -/
def writeFileDurablySync (d : Disk StatePath) (name : ℕ) (bytes : Bytes) (sizes : List ℕ)
    (kept : Option (List ℕ)) : List (FileOp StatePath) :=
  writeFlushedSync name bytes sizes ++
    ((kept.elim [] (keepPreviousSync d (name + 1))) ++
      [.rename (.temporary name) .target, .flushDirectory, .remove (.temporary name)])

inductive StateFileRead (τ : Type) where
  | ok (value : τ)
  | missing
  | restored (value : τ) (preservedAs : StatePath)
  | corrupt (preservedAs : List StatePath)

def StateFileRead.value? {τ : Type} : StateFileRead τ → Option τ
  | .ok value | .restored value _ => some value
  | .missing | .corrupt _ => none

section Reading

variable {τ : Type} (decode : Bytes → Option τ)

def decodeBytes {π : Type} (parse : Bytes → Option π) (validate : π → Option τ) (bytes : Bytes) :
    Option τ :=
  if isBlank bytes = true then none else (parse bytes).bind validate

/-- The target does not hold a value: the previous copy is put back, or the user decides. -/
def recover (d : Disk StatePath) (acceptFresh : Bool) (name : ℕ) (sizes : List ℕ) :
    StateFileRead τ × List (FileOp StatePath) :=
  match d.read .target, d.read .previous with
  | none, none => (.missing, [])
  | none, some previous =>
    match decode previous with
    | some value => (.restored value .previous, writeFileDurablySync d name previous sizes none)
    | none =>
      if acceptFresh = true then (.corrupt [.aside name], [.rename .previous (.aside name)])
      else (.corrupt [], [])
  | some _, previous =>
    match previous, previous.bind decode with
    | some copy, some value =>
      (.restored value (.aside name),
        .rename .target (.aside name) :: writeFileDurablySync d name copy sizes none)
    | some _, none =>
      if acceptFresh = true then
        (.corrupt [.aside name, .aside (name + 1)],
          [.rename .target (.aside name), .rename .previous (.aside (name + 1))])
      else (.corrupt [], [])
    | none, _ =>
      if acceptFresh = true then (.corrupt [.aside name], [.rename .target (.aside name)])
      else (.corrupt [], [])

def readStateFileSync (d : Disk StatePath) (acceptFresh : Bool) (name : ℕ) (sizes : List ℕ) :
    StateFileRead τ × List (FileOp StatePath) :=
  match (d.read .target).bind decode with
  | some value => (.ok value, [])
  | none => recover decode d acceptFresh name sizes

end Reading

/-- `names` were generated so far. `saves` and `candidates` remember how many saves returned and the
values that the last one and those interrupted since were for, until a load answers one of them. -/
structure StateFile (τ : Type) where
  disk : Disk StatePath
  names : ℕ
  saves : ℕ
  candidates : List τ

def StateFile.created (τ : Type) : StateFile τ := ⟨fun _ => none, 0, 0, []⟩

/-- Where a call is stopped, and what becomes of the files that were not flushed. -/
structure Stop where
  after : ℕ
  blank : StatePath → Option ℕ

/-- `damage` is what happens to the target from outside. -/
inductive FileInput where
  | save (bytes : Bytes) (sizes kept : List ℕ) (stop : Option Stop)
  | load (acceptFresh : Bool) (sizes : List ℕ) (stop : Option Stop)
  | damage (bytes : Bytes)

def perform (d : Disk StatePath) (ops : List (FileOp StatePath)) : Option Stop → Disk StatePath
  | none => d.run ops
  | some stop => d.stop stop.after stop.blank ops

namespace StateFile

variable {τ : Type} (decode : Bytes → Option τ)

def saveOps (s : StateFile τ) (bytes : Bytes) (sizes kept : List ℕ) : List (FileOp StatePath) :=
  writeFileDurablySync s.disk s.names bytes sizes (some kept)

def answer (s : StateFile τ) (acceptFresh : Bool) (sizes : List ℕ) :
    StateFileRead τ × List (FileOp StatePath) :=
  readStateFileSync decode s.disk acceptFresh s.names sizes

def step (s : StateFile τ) : FileInput → StateFile τ
  | .save bytes sizes kept stop =>
    { disk := perform s.disk (s.saveOps bytes sizes kept) stop
      names := s.names + 2
      saves := if stop.isNone = true then s.saves + 1 else s.saves
      candidates := if stop.isNone = true then (decode bytes).toList
        else s.candidates ++ (decode bytes).toList }
  | .load acceptFresh sizes stop =>
    { s with
      disk := perform s.disk (s.answer decode acceptFresh sizes).2 stop
      names := s.names + 2
      candidates := if stop.isNone = true then
          (s.answer decode acceptFresh sizes).1.value?.elim s.candidates fun value => [value]
        else s.candidates }
  | .damage bytes =>
    if (s.disk .target).isSome = true ∧ (decode bytes).isNone = true then
      { s with disk := Function.update s.disk .target (some ⟨bytes, true⟩) }
    else s

end StateFile

end Terminay.Files
