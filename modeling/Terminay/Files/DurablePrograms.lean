import Terminay.Files.DurableFile

/-!
# Every point of a save

Stopped after any file operation, a save leaves the target at the old or the new content
and the previous copy at the old one or at what the target held.
-/

namespace Terminay.Files
open Script

def StatePath.Lasting : StatePath → Prop
  | .temporary _ => False
  | _ => True

section Programs

variable {d : Disk StatePath} {name : ℕ} {bytes : Bytes} {sizes : List ℕ} {p : StatePath}

theorem chunks_flatten (sizes : List ℕ) (bytes : Bytes) :
    (chunks sizes bytes).flatten = bytes := by
  induction sizes generalizing bytes with
  | nil =>
    rw [chunks]
    split_ifs with hempty
    · rw [hempty, List.flatten_nil]
    · simp
  | cons size sizes ih =>
    rw [chunks]
    split_ifs with hempty
    · rw [hempty, List.flatten_nil]
    · rw [List.flatten_cons, ih, List.take_append_drop]

theorem writeFlushed_lasting (hp : p.Lasting) :
    ∀ op ∈ writeFlushedSync name bytes sizes, p ∉ op.paths := by
  apply Disk.writeFlushed_untouched
  rintro rfl
  exact hp

theorem run_writeFlushedSync (d : Disk StatePath) (name : ℕ) (bytes : Bytes) (sizes : List ℕ) :
    d.run (writeFlushedSync name bytes sizes) (.temporary name) = some ⟨bytes, true⟩ := by
  have hrun := Disk.run_writeFlushed d (.temporary name) (chunks sizes bytes)
  rw [chunks_flatten] at hrun
  exact hrun

def keptCopy (d : Disk StatePath) : Option StoredFile :=
  match d.read .target with
  | none => d .previous
  | some current => if isBlank current = true then d .previous else some ⟨current, true⟩

theorem keepPrevious_untouched (hp : p.Lasting) (hne : p ≠ .previous) :
    ∀ op ∈ keepPreviousSync d name sizes, p ∉ op.paths := by
  unfold keepPreviousSync
  split
  · exact fun op hop => (by cases hop)
  · split_ifs
    · exact fun op hop => (by cases hop)
    · intro op hop
      rcases List.mem_append.mp hop with hop | hop
      · exact writeFlushed_lasting hp op hop
      · have htemporary : p ≠ .temporary name := by
          rintro rfl
          exact hp
        simp only [List.mem_cons, List.not_mem_nil, or_false] at hop
        rcases hop with rfl | rfl
        · simp [FileOp.paths, htemporary, hne]
        · simp [FileOp.paths, htemporary]

theorem keepPrevious_temporary {other : ℕ} (hne : other ≠ name) :
    ∀ op ∈ keepPreviousSync d name sizes, StatePath.temporary other ∉ op.paths := by
  unfold keepPreviousSync
  split
  · exact fun op hop => (by cases hop)
  · split_ifs
    · exact fun op hop => (by cases hop)
    · intro op hop
      rcases List.mem_append.mp hop with hop | hop
      · apply Disk.writeFlushed_untouched _ op hop
        simp [hne]
      · simp only [List.mem_cons, List.not_mem_nil, or_false] at hop
        rcases hop with rfl | rfl
        · simp [FileOp.paths, hne]
        · simp [FileOp.paths, hne]

theorem remove_previous : ∀ op ∈ [FileOp.remove (StatePath.temporary name)],
    StatePath.previous ∉ op.paths := by
  intro op hop
  rw [List.mem_singleton.mp hop]
  simp [FileOp.paths]

theorem keepPrevious_take (d e : Disk StatePath) (n : ℕ) (hsame : e .previous = d .previous) :
    e.run ((keepPreviousSync d name sizes).take n) .previous = d .previous ∨
      e.run ((keepPreviousSync d name sizes).take n) .previous = keptCopy d := by
  unfold keepPreviousSync keptCopy
  rcases d.read .target with _ | current
  · exact .inl (by rw [List.take_nil]; exact hsame)
  · simp only
    split_ifs
    · exact .inl (by rw [List.take_nil]; exact hsame)
    · have hwrites : e.run (writeFlushedSync name current sizes) .previous = d .previous :=
        (Disk.run_untouched (writeFlushed_lasting (p := .previous) trivial)).trans hsame
      rcases Disk.run_take_append n e (writeFlushedSync name current sizes) _ with hrun | hrun
      · left
        rw [hrun]
        exact (Disk.run_take_untouched _ (writeFlushed_lasting (p := .previous) trivial)).trans
          hsame
      · rw [hrun]
        rcases Disk.run_take_rename (n - (writeFlushedSync name current sizes).length)
          (d := e.run (writeFlushedSync name current sizes)) (p := .temporary name) (by simp)
          remove_previous with hold | hnew
        · left
          rw [hold, hwrites]
        · right
          rw [hnew, run_writeFlushedSync]

theorem keepPrevious_run (d e : Disk StatePath) (hsame : e .previous = d .previous) :
    e.run (keepPreviousSync d name sizes) .previous = keptCopy d := by
  unfold keepPreviousSync keptCopy
  rcases d.read .target with _ | current
  · exact hsame
  · simp only
    split_ifs
    · exact hsame
    · rw [Disk.run_append, Disk.run_rename (by simp) remove_previous, run_writeFlushedSync]

def keptOps (d : Disk StatePath) (name : ℕ) (kept : Option (List ℕ)) : List (FileOp StatePath) :=
  kept.elim [] (keepPreviousSync d name)

theorem keptOps_untouched {kept : Option (List ℕ)} (hp : p.Lasting) (hne : p ≠ .previous) :
    ∀ op ∈ keptOps d name kept, p ∉ op.paths := by
  rcases kept with _ | sizes
  · exact fun op hop => (by cases hop)
  · exact keepPrevious_untouched hp hne

theorem keptOps_temporary {kept : Option (List ℕ)} {other : ℕ} (hne : other ≠ name) :
    ∀ op ∈ keptOps d name kept, StatePath.temporary other ∉ op.paths := by
  rcases kept with _ | sizes
  · exact fun op hop => (by cases hop)
  · exact keepPrevious_temporary hne

def replaceOps (name : ℕ) : List (FileOp StatePath) :=
  [.rename (.temporary name) .target, .flushDirectory, .remove (.temporary name)]

theorem writeFileDurablySync_eq (kept : Option (List ℕ)) :
    writeFileDurablySync d name bytes sizes kept =
      writeFlushedSync name bytes sizes ++ (keptOps d (name + 1) kept ++ replaceOps name) := rfl

theorem replaceOps_untouched (hp : p.Lasting) (hne : p ≠ .target) :
    ∀ op ∈ replaceOps name, p ∉ op.paths := by
  have htemporary : p ≠ .temporary name := by
    rintro rfl
    exact hp
  intro op hop
  simp only [replaceOps, List.mem_cons, List.not_mem_nil, or_false] at hop
  rcases hop with rfl | rfl | rfl
  · simp [FileOp.paths, htemporary, hne]
  · simp [FileOp.paths]
  · simp [FileOp.paths, htemporary]

theorem replaceOps_target (hne : StatePath.target ≠ .temporary name) :
    ∀ op ∈ [FileOp.flushDirectory, .remove (StatePath.temporary name)],
      StatePath.target ∉ op.paths := by
  intro op hop
  simp only [List.mem_cons, List.not_mem_nil, or_false] at hop
  rcases hop with rfl | rfl
  · simp [FileOp.paths]
  · simp [FileOp.paths, hne]

/-- At every point of a save the target is the old one or the new one. -/
theorem save_take_target (d e : Disk StatePath) (n : ℕ) (kept : Option (List ℕ)) :
    e.run ((writeFileDurablySync d name bytes sizes kept).take n) .target = e .target ∨
      e.run ((writeFileDurablySync d name bytes sizes kept).take n) .target =
        some ⟨bytes, true⟩ := by
  have hlasting : StatePath.target.Lasting := trivial
  rw [writeFileDurablySync_eq]
  rcases Disk.run_take_append n e (writeFlushedSync name bytes sizes) _ with hrun | hrun
  · left
    rw [hrun, Disk.run_take_untouched _ (writeFlushed_lasting hlasting)]
  · rw [hrun]
    have htarget : e.run (writeFlushedSync name bytes sizes) .target = e .target :=
      Disk.run_untouched (writeFlushed_lasting hlasting)
    generalize n - (writeFlushedSync name bytes sizes).length = m
    rcases Disk.run_take_append m (e.run (writeFlushedSync name bytes sizes))
      (keptOps d (name + 1) kept) (replaceOps name) with hrun | hrun
    · left
      rw [hrun, Disk.run_take_untouched _ (keptOps_untouched hlasting (by simp)), htarget]
    · rw [hrun]
      rcases Disk.run_take_rename (p := .temporary name)
        (m - (keptOps d (name + 1) kept).length) (by simp) (replaceOps_target (by simp))
        with hold | hnew
      · left
        exact hold.trans ((Disk.run_untouched (keptOps_untouched hlasting (by simp))).trans htarget)
      · right
        refine hnew.trans ?_
        rw [Disk.run_untouched (keptOps_temporary (Nat.ne_of_lt (Nat.lt_succ_self name))),
          run_writeFlushedSync]

theorem save_run_target (d e : Disk StatePath) (kept : Option (List ℕ)) :
    e.run (writeFileDurablySync d name bytes sizes kept) .target = some ⟨bytes, true⟩ := by
  rw [writeFileDurablySync_eq, Disk.run_append, Disk.run_append]
  refine (Disk.run_rename (by simp) (replaceOps_target (by simp))).trans ?_
  rw [Disk.run_untouched (keptOps_temporary (Nat.ne_of_lt (Nat.lt_succ_self name))),
    run_writeFlushedSync]

theorem save_untouched {kept : Option (List ℕ)} (hp : p.Lasting) (ht : p ≠ .target)
    (hprevious : p ≠ .previous ∨ kept = none) :
    ∀ op ∈ writeFileDurablySync d name bytes sizes kept, p ∉ op.paths := by
  intro op hop
  rw [writeFileDurablySync_eq] at hop
  rcases List.mem_append.mp hop with hop | hop
  · exact writeFlushed_lasting hp op hop
  · rcases List.mem_append.mp hop with hop | hop
    · rcases hprevious with hne | rfl
      · exact keptOps_untouched hp hne op hop
      · cases hop
    · exact replaceOps_untouched hp ht op hop

/-- At every point of a save the previous copy is the old one or the kept one. -/
theorem save_take_previous (d : Disk StatePath) (n : ℕ) (kept : List ℕ) :
    d.run ((writeFileDurablySync d name bytes sizes (some kept)).take n) .previous = d .previous ∨
      d.run ((writeFileDurablySync d name bytes sizes (some kept)).take n) .previous =
        keptCopy d := by
  have hlasting : StatePath.previous.Lasting := trivial
  rw [writeFileDurablySync_eq]
  rcases Disk.run_take_append n d (writeFlushedSync name bytes sizes) _ with hrun | hrun
  · left
    rw [hrun, Disk.run_take_untouched _ (writeFlushed_lasting hlasting)]
  · rw [hrun]
    have hprevious : d.run (writeFlushedSync name bytes sizes) .previous = d .previous :=
      Disk.run_untouched (writeFlushed_lasting hlasting)
    generalize n - (writeFlushedSync name bytes sizes).length = m
    rcases Disk.run_take_append m (d.run (writeFlushedSync name bytes sizes))
      (keptOps d (name + 1) (some kept)) (replaceOps name) with hrun | hrun
    · rw [hrun]
      exact keepPrevious_take d _ m hprevious
    · right
      rw [hrun, Disk.run_take_untouched _ (replaceOps_untouched hlasting (by simp))]
      exact keepPrevious_run d _ hprevious

theorem save_run_previous (d : Disk StatePath) (kept : List ℕ) :
    d.run (writeFileDurablySync d name bytes sizes (some kept)) .previous = keptCopy d := by
  have hlasting : StatePath.previous.Lasting := trivial
  rw [writeFileDurablySync_eq, Disk.run_append, Disk.run_append,
    Disk.run_untouched (replaceOps_untouched hlasting (by simp))]
  exact keepPrevious_run d _ (Disk.run_untouched (writeFlushed_lasting hlasting))

end Programs

end Terminay.Files
