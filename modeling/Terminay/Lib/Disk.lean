import Mathlib.Tactic.Common

/-!
# Files that survive a stop

A program of file operations may be stopped after any of them.
-/

structure StoredFile where
  bytes : List UInt8
  flushed : Bool
  deriving DecidableEq

abbrev Disk (ρ : Type) := ρ → Option StoredFile

inductive FileOp (ρ : Type) where
  | openNew (path : ρ)
  | write (path : ρ) (chunk : List UInt8)
  | flush (path : ρ)
  | close (path : ρ)
  | rename (source destination : ρ)
  | flushDirectory
  | remove (path : ρ)

namespace Disk

variable {ρ : Type} [DecidableEq ρ] {d : Disk ρ} {ops xs ys : List (FileOp ρ)} {p q : ρ}

def apply (d : Disk ρ) : FileOp ρ → Disk ρ
  | .openNew path => Function.update d path (some ⟨[], false⟩)
  | .write path chunk =>
    Function.update d path ((d path).map fun file => ⟨file.bytes ++ chunk, false⟩)
  | .flush path => Function.update d path ((d path).map fun file => { file with flushed := true })
  | .close _ | .flushDirectory => d
  | .rename source destination =>
    Function.update (Function.update d destination (d source)) source none
  | .remove path => Function.update d path none

def run (d : Disk ρ) (ops : List (FileOp ρ)) : Disk ρ := ops.foldl apply d

def crash (blank : ρ → Option ℕ) (d : Disk ρ) : Disk ρ := fun path =>
  (d path).map fun file =>
    if file.flushed = true then file
    else (blank path).elim file fun n => { file with bytes := List.replicate n 0 }

def stop (n : ℕ) (blank : ρ → Option ℕ) (d : Disk ρ) (ops : List (FileOp ρ)) : Disk ρ :=
  crash blank (run d (ops.take n))

def read (d : Disk ρ) (path : ρ) : Option (List UInt8) := (d path).map StoredFile.bytes

end Disk

namespace FileOp

variable {ρ : Type}

def paths : FileOp ρ → List ρ
  | .openNew path | .write path _ | .flush path | .close path | .remove path => [path]
  | .rename source destination => [source, destination]
  | .flushDirectory => []

end FileOp

namespace Disk

variable {ρ : Type} [DecidableEq ρ] {d : Disk ρ} {ops xs ys : List (FileOp ρ)} {p q : ρ}

theorem apply_untouched {op : FileOp ρ} (h : p ∉ op.paths) : apply d op p = d p := by
  cases op with
  | openNew path | write path chunk | flush path | remove path =>
    simp only [FileOp.paths, List.mem_singleton] at h
    exact Function.update_of_ne h _ _
  | close path => rfl
  | rename source destination =>
    simp only [FileOp.paths, List.mem_cons, List.not_mem_nil, or_false, not_or] at h
    rw [apply, Function.update_of_ne h.1, Function.update_of_ne h.2]
  | flushDirectory => rfl

theorem run_append (d : Disk ρ) (xs ys : List (FileOp ρ)) :
    run d (xs ++ ys) = run (run d xs) ys := List.foldl_append

theorem run_untouched (h : ∀ op ∈ ops, p ∉ op.paths) : run d ops p = d p := by
  induction ops generalizing d with
  | nil => rfl
  | cons op ops ih =>
    have hrest := ih (d := apply d op) fun o ho => h o (List.mem_cons_of_mem _ ho)
    exact hrest.trans (apply_untouched (h op List.mem_cons_self))

theorem run_take_untouched (n : ℕ) (h : ∀ op ∈ ops, p ∉ op.paths) :
    run d (ops.take n) p = d p :=
  run_untouched fun op hop => h op (List.mem_of_mem_take hop)

/-- A prefix of two programs ends in the first or in the second. -/
theorem run_take_append (n : ℕ) (d : Disk ρ) (xs ys : List (FileOp ρ)) :
    run d ((xs ++ ys).take n) = run d (xs.take n) ∨
      run d ((xs ++ ys).take n) = run (run d xs) (ys.take (n - xs.length)) := by
  rw [List.take_append]
  rcases Nat.le_total n xs.length with hle | hle
  · left
    rw [Nat.sub_eq_zero_of_le hle, List.take_zero, List.append_nil]
  · right
    rw [List.take_of_length_le hle, run_append]

theorem run_take_cons (n : ℕ) (d : Disk ρ) (op : FileOp ρ) (ops : List (FileOp ρ)) :
    run d ((op :: ops).take n) = d ∨
      run d ((op :: ops).take n) = run (apply d op) (ops.take (n - 1)) := by
  cases n with
  | zero => exact .inl rfl
  | succ n => exact .inr rfl

section Crash

omit [DecidableEq ρ] in
theorem crash_flushed {blank : ρ → Option ℕ} (h : ∀ file ∈ d p, file.flushed = true) :
    crash blank d p = d p := by
  rw [crash]
  rcases hfile : d p with _ | file
  · rfl
  · rw [Option.map_some, if_pos (h file hfile)]

/-- Replacing a file is done at once: before it the file is the old one, after it the new one. -/
theorem run_take_rename (n : ℕ) (hne : p ≠ q) (h : ∀ op ∈ ops, q ∉ op.paths) :
    run d ((.rename p q :: ops).take n) q = d q ∨
      run d ((.rename p q :: ops).take n) q = d p := by
  rcases run_take_cons n d (.rename p q) ops with hrun | hrun
  · left
    rw [hrun]
  · right
    rw [hrun, run_take_untouched _ h, apply, Function.update_of_ne (Ne.symm hne),
      Function.update_self]

theorem run_rename (hne : p ≠ q) (h : ∀ op ∈ ops, q ∉ op.paths) :
    run d (.rename p q :: ops) q = d p := by
  have hrest := run_untouched (d := apply d (.rename p q)) h
  refine hrest.trans ?_
  rw [apply, Function.update_of_ne (Ne.symm hne), Function.update_self]

end Crash

section Writing

def writeFlushed (path : ρ) (chunks : List (List UInt8)) : List (FileOp ρ) :=
  .openNew path :: chunks.map (.write path) ++ [.flush path, .close path]

omit [DecidableEq ρ] in
theorem writeFlushed_paths {path : ρ} {chunks : List (List UInt8)} {op : FileOp ρ}
    (h : op ∈ writeFlushed path chunks) : op.paths = [path] := by
  rcases List.mem_append.mp h with h | h
  · rcases List.mem_cons.mp h with rfl | h
    · rfl
    · obtain ⟨chunk, -, rfl⟩ := List.mem_map.mp h
      rfl
  · simp only [List.mem_cons, List.not_mem_nil, or_false] at h
    rcases h with rfl | rfl
    · rfl
    · rfl

theorem writeFlushed_untouched {path : ρ} {chunks : List (List UInt8)} (hne : p ≠ path) :
    ∀ op ∈ writeFlushed path chunks, p ∉ op.paths := by
  intro op hop
  rw [writeFlushed_paths hop]
  exact fun hmem => hne (List.mem_singleton.mp hmem)

theorem run_writes {path : ρ} (chunks : List (List UInt8)) {file : StoredFile}
    (h : d path = some file) : run d (chunks.map (.write path)) path =
      some ⟨file.bytes ++ chunks.flatten, file.flushed && chunks.isEmpty⟩ := by
  induction chunks generalizing d file with
  | nil => simpa [run] using h
  | cons chunk chunks ih =>
    have hnext : apply d (.write path chunk) path = some ⟨file.bytes ++ chunk, false⟩ := by
      rw [apply, Function.update_self, h]
      rfl
    rw [List.map_cons]
    refine (ih hnext).trans ?_
    simp

theorem run_writeFlushed (d : Disk ρ) (path : ρ) (chunks : List (List UInt8)) :
    run d (writeFlushed path chunks) path = some ⟨chunks.flatten, true⟩ := by
  have hopen : apply d (.openNew path) path = some ⟨[], false⟩ := Function.update_self _ _ _
  have hwrites := run_writes chunks hopen
  rw [writeFlushed, run_append]
  have hfirst : run d (.openNew path :: chunks.map (.write path)) path =
      some ⟨chunks.flatten, false⟩ := by
    refine hwrites.trans ?_
    simp
  generalize run d (.openNew path :: chunks.map (.write path)) = e at hfirst
  simp [run, apply, hfirst]

end Writing

end Disk
