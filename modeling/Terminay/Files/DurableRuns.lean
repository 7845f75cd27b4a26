import Terminay.Files.DurablePrograms

/-!
# Runs of saves, loads and crashes

A load answers the last save that returned or one interrupted since.
-/

namespace Terminay.Files
open Script

section Flushed

variable {d e : Disk StatePath} {ops : List (FileOp StatePath)} {name : ℕ} {bytes : Bytes}
  {sizes : List ℕ}

def Flushed (d : Disk StatePath) : Prop :=
  ∀ p : StatePath, p.Lasting → ∀ file ∈ d p, file.flushed = true

theorem Flushed.take_cons {op : FileOp StatePath} (h : Flushed d)
    (hrest : ∀ n, Flushed ((d.apply op).run (ops.take n))) (n : ℕ) :
    Flushed (d.run ((op :: ops).take n)) := by
  rcases Disk.run_take_cons n d op ops with hrun | hrun
  · rw [hrun]
    exact h
  · rw [hrun]
    exact hrest _

theorem Flushed.take_nil (h : Flushed d) (n : ℕ) : Flushed (d.run (([] : List _).take n)) := by
  rw [List.take_nil]
  exact h

theorem Flushed.rename {source destination : StatePath} (h : Flushed d) (hs : source.Lasting) :
    Flushed (d.apply (.rename source destination)) := by
  intro p hp file hfile
  by_cases hsource : p = source
  · subst hsource
    simp [Disk.apply] at hfile
  · rw [Disk.apply, Function.update_of_ne hsource] at hfile
    by_cases hdestination : p = destination
    · subst hdestination
      rw [Function.update_self] at hfile
      exact h source hs file hfile
    · rw [Function.update_of_ne hdestination] at hfile
      exact h p hp file hfile

theorem Flushed.keptCopy (h : Flushed d) : ∀ file ∈ keptCopy d, file.flushed = true := by
  unfold Files.keptCopy
  intro file hfile
  split at hfile
  · exact h .previous trivial file hfile
  · split_ifs at hfile
    · exact h .previous trivial file hfile
    · cases hfile
      rfl

theorem Flushed.restore (h : Flushed e) (n : ℕ) :
    Flushed (e.run ((writeFileDurablySync d name bytes sizes none).take n)) := by
  intro p hp file hfile
  by_cases htarget : p = .target
  · subst htarget
    rcases save_take_target d e n none with hrun | hrun
    · exact h .target trivial file (hrun ▸ hfile)
    · rw [hrun] at hfile
      cases hfile
      rfl
  · rw [Disk.run_take_untouched n (save_untouched hp htarget (.inr rfl))] at hfile
    exact h p hp file hfile

theorem Flushed.save (h : Flushed d) (kept : List ℕ) (n : ℕ) :
    Flushed (d.run ((writeFileDurablySync d name bytes sizes (some kept)).take n)) := by
  intro p hp file hfile
  by_cases htarget : p = .target
  · subst htarget
    rcases save_take_target d d n (some kept) with hrun | hrun
    · exact h .target trivial file (hrun ▸ hfile)
    · rw [hrun] at hfile
      cases hfile
      rfl
  · by_cases hprevious : p = .previous
    · subst hprevious
      rcases save_take_previous d n kept with hrun | hrun
      · exact h .previous trivial file (hrun ▸ hfile)
      · exact h.keptCopy file (hrun ▸ hfile)
    · rw [Disk.run_take_untouched n (save_untouched hp htarget (.inl hprevious))] at hfile
      exact h p hp file hfile

theorem perform_eq (h : ∀ n, Flushed (d.run (ops.take n))) (stop : Option Stop) :
    ∃ n, (stop = none → ops.take n = ops) ∧
      ∀ p : StatePath, p.Lasting → perform d ops stop p = d.run (ops.take n) p := by
  rcases stop with _ | stop
  · refine ⟨ops.length, fun _ => List.take_length, fun p _ => ?_⟩
    rw [List.take_length]
    rfl
  · refine ⟨stop.after, fun hnone => (by cases hnone), fun p hp => ?_⟩
    exact Disk.crash_flushed (h stop.after p hp)

theorem perform_flushed (h : ∀ n, Flushed (d.run (ops.take n))) (stop : Option Stop) :
    Flushed (perform d ops stop) := by
  obtain ⟨n, -, hrun⟩ := perform_eq h stop
  intro p hp file hfile
  rw [hrun p hp] at hfile
  exact h n p hp file hfile

theorem perform_untouched {p : StatePath} (h : ∀ n, Flushed (d.run (ops.take n)))
    (stop : Option Stop) (hp : p.Lasting) (huntouched : ∀ op ∈ ops, p ∉ op.paths) :
    perform d ops stop p = d p := by
  obtain ⟨n, -, hrun⟩ := perform_eq h stop
  rw [hrun p hp, Disk.run_take_untouched n huntouched]

end Flushed

section Loading

variable {τ : Type} {decode : Bytes → Option τ} {d : Disk StatePath} {name : ℕ} {sizes : List ℕ}
  {read : StateFileRead τ} {ops : List (FileOp StatePath)}

/-- What a load answers and does. -/
inductive Loads (decode : Bytes → Option τ) (d : Disk StatePath) (name : ℕ) (sizes : List ℕ) :
    StateFileRead τ → List (FileOp StatePath) → Prop where
  | ok {bytes : Bytes} {value : τ} (htarget : d.read .target = some bytes)
      (hvalue : decode bytes = some value) : Loads decode d name sizes (.ok value) []
  | missing (htarget : d.read .target = none) (hprevious : d.read .previous = none) :
      Loads decode d name sizes .missing []
  | replaced {copy : Bytes} {value : τ} (htarget : d.read .target = none)
      (hprevious : d.read .previous = some copy) (hvalue : decode copy = some value) :
      Loads decode d name sizes (.restored value .previous)
        (writeFileDurablySync d name copy sizes none)
  | restored {bytes copy : Bytes} {value : τ} (htarget : d.read .target = some bytes)
      (hdamaged : decode bytes = none) (hprevious : d.read .previous = some copy)
      (hvalue : decode copy = some value) :
      Loads decode d name sizes (.restored value (.aside name))
        (.rename .target (.aside name) :: writeFileDurablySync d name copy sizes none)
  | corrupt {preserved : List StatePath} {ops : List (FileOp StatePath)}
      (htarget : (d.read .target).bind decode = none)
      (hprevious : (d.read .previous).bind decode = none)
      (hpresent : (d.read .target).isSome = true ∨ (d.read .previous).isSome = true)
      (hops : ops = [] ∨ ops = [.rename .previous (.aside name)] ∨
        ops = [.rename .target (.aside name)] ∨
        ops = [.rename .target (.aside name), .rename .previous (.aside (name + 1))])
      (hcopy : d.read .previous = none → ∀ op ∈ ops, StatePath.previous ∉ op.paths) :
      Loads decode d name sizes (.corrupt preserved) ops

theorem readStateFileSync_loads (decode : Bytes → Option τ) (d : Disk StatePath)
    (acceptFresh : Bool) (name : ℕ) (sizes : List ℕ) :
    Loads decode d name sizes (readStateFileSync decode d acceptFresh name sizes).1
      (readStateFileSync decode d acceptFresh name sizes).2 := by
  unfold readStateFileSync recover
  rcases htarget : d.read .target with _ | bytes
  · rcases hprevious : d.read .previous with _ | copy
    · exact .missing htarget hprevious
    · rcases hvalue : decode copy with _ | value
      · have hnone : (d.read .previous).bind decode = none := by simp [hprevious, hvalue]
        simp only [Option.bind_none, hvalue]
        split_ifs
        · exact .corrupt (by simp [htarget]) hnone (by simp [hprevious]) (by simp)
            (by simp [hprevious])
        · exact .corrupt (by simp [htarget]) hnone (by simp [hprevious]) (by simp) (by simp)
      · simp only [Option.bind_none, hvalue]
        exact .replaced htarget hprevious hvalue
  · rcases hdamaged : decode bytes with _ | value
    · have hnone : (d.read .target).bind decode = none := by simp [htarget, hdamaged]
      simp only [Option.bind_some, hdamaged]
      rcases hprevious : d.read .previous with _ | copy
      · simp only
        split_ifs
        · exact .corrupt hnone (by simp [hprevious]) (by simp [htarget]) (by simp)
            (by simp [FileOp.paths])
        · exact .corrupt hnone (by simp [hprevious]) (by simp [htarget]) (by simp) (by simp)
      · rcases hvalue : decode copy with _ | value
        · simp only [Option.bind_some, hvalue]
          split_ifs
          · exact .corrupt hnone (by simp [hprevious, hvalue]) (by simp [htarget]) (by simp)
              (by simp [hprevious])
          · exact .corrupt hnone (by simp [hprevious, hvalue]) (by simp [htarget]) (by simp)
              (by simp)
        · simp only [Option.bind_some, hvalue]
          exact .restored htarget hdamaged hprevious hvalue
    · simp only [Option.bind_some, hdamaged]
      exact .ok htarget hdamaged

theorem Loads.flushed (h : Loads decode d name sizes read ops) (hd : Flushed d) (n : ℕ) :
    Flushed (d.run (ops.take n)) := by
  have htarget : StatePath.target.Lasting := trivial
  have hprevious : StatePath.previous.Lasting := trivial
  cases h with
  | ok | missing => exact hd.take_nil n
  | replaced => exact hd.restore n
  | restored => exact hd.take_cons (fun m => (hd.rename htarget).restore m) n
  | corrupt _ _ _ hops _ =>
    rcases hops with rfl | rfl | rfl | rfl
    · exact hd.take_nil n
    · exact hd.take_cons (hd.rename hprevious).take_nil n
    · exact hd.take_cons (hd.rename htarget).take_nil n
    · exact hd.take_cons
        (((hd.rename htarget).take_cons ((hd.rename htarget).rename hprevious).take_nil)) n

theorem Loads.aside (h : Loads decode d name sizes read ops) {i : ℕ} (hi : i ≠ name)
    (hnext : i ≠ name + 1) : ∀ op ∈ ops, StatePath.aside i ∉ op.paths := by
  have hrestore : ∀ copy, ∀ op ∈ writeFileDurablySync d name copy sizes none,
      StatePath.aside i ∉ op.paths := fun copy =>
    save_untouched trivial (by simp) (.inr rfl)
  cases h with
  | ok | missing => exact fun op hop => (by cases hop)
  | replaced => exact hrestore _
  | restored =>
    intro op hop
    rcases List.mem_cons.mp hop with rfl | hop
    · simp [FileOp.paths, hi]
    · exact hrestore _ op hop
  | corrupt _ _ _ hops _ =>
    rcases hops with rfl | rfl | rfl | rfl
    · simp
    · simp [FileOp.paths, hi]
    · simp [FileOp.paths, hi]
    · simp [FileOp.paths, hi, hnext]

end Loading

namespace FileInput

variable {τ : Type}

def Saves (decode : Bytes → Option τ) : FileInput → Prop
  | .save bytes _ _ _ => (decode bytes).isSome = true
  | .load _ _ _ | .damage _ => True

def Undamaging : FileInput → Prop
  | .save _ _ _ _ | .load _ _ _ => True
  | .damage _ => False

def IsLoad : FileInput → Prop
  | .load _ _ _ => True
  | .save _ _ _ _ | .damage _ => False

/-- A save does not start over content that is damaged but not blank. -/
def Tended (decode : Bytes → Option τ) (s : StateFile τ) : FileInput → Prop
  | .save _ _ _ _ =>
    ∀ bytes ∈ s.disk.read .target, isBlank bytes = true ∨ (decode bytes).isSome = true
  | .load _ _ _ | .damage _ => True

end FileInput

namespace StateFile

variable {τ : Type} {decode : Bytes → Option τ} {s : StateFile τ}

structure Settled (s : StateFile τ) : Prop where
  flushed : Flushed s.disk
  fresh : ∀ i, s.names ≤ i → s.disk (.aside i) = none

theorem created_settled : (created τ).Settled :=
  ⟨fun _ _ _ hfile => (by cases hfile), fun _ _ => rfl⟩

theorem loads (decode : Bytes → Option τ) (s : StateFile τ) (acceptFresh : Bool) (sizes : List ℕ) :
    Loads decode s.disk s.names sizes (s.answer decode acceptFresh sizes).1
      (s.answer decode acceptFresh sizes).2 :=
  readStateFileSync_loads decode s.disk acceptFresh s.names sizes

theorem damage_cases (decode : Bytes → Option τ) (s : StateFile τ) (bytes : Bytes) :
    (s.step decode (.damage bytes)).disk = s.disk ∨
      (s.disk .target).isSome = true ∧ decode bytes = none ∧
        (s.step decode (.damage bytes)).disk =
          Function.update s.disk .target (some ⟨bytes, true⟩) := by
  rw [step]
  split_ifs with hdamage
  · exact .inr ⟨hdamage.1, Option.isNone_iff_eq_none.mp hdamage.2, rfl⟩
  · exact .inl rfl

theorem Settled.aside (h : s.Settled) (decode : Bytes → Option τ) (input : FileInput) {i : ℕ}
    (hi : i ≠ s.names) (hnext : i ≠ s.names + 1) :
    (s.step decode input).disk (.aside i) = s.disk (.aside i) := by
  have hlasting : (StatePath.aside i).Lasting := trivial
  cases input with
  | save bytes sizes kept stop =>
    exact perform_untouched (h.flushed.save kept) stop hlasting
      (save_untouched hlasting (by simp) (.inl (by simp)))
  | load acceptFresh sizes stop =>
    have hloads := s.loads decode acceptFresh sizes
    exact perform_untouched (hloads.flushed h.flushed) stop hlasting (hloads.aside hi hnext)
  | damage bytes =>
    rcases s.damage_cases decode bytes with hsame | ⟨-, -, hdamaged⟩
    · rw [hsame]
    · rw [hdamaged, Function.update_of_ne (by simp)]

theorem Settled.step (h : s.Settled) (input : FileInput) : (s.step decode input).Settled := by
  cases input with
  | save bytes sizes kept stop =>
    refine ⟨perform_flushed (h.flushed.save kept) stop, fun i hi => ?_⟩
    have hlater : s.names + 2 ≤ i := hi
    rw [h.aside decode _ (by omega) (by omega)]
    exact h.fresh i (by omega)
  | load acceptFresh sizes stop =>
    have hloads := s.loads decode acceptFresh sizes
    refine ⟨perform_flushed (hloads.flushed h.flushed) stop, fun i hi => ?_⟩
    have hlater : s.names + 2 ≤ i := hi
    rw [h.aside decode _ (by omega) (by omega)]
    exact h.fresh i (by omega)
  | damage bytes =>
    have hnames : (s.step decode (.damage bytes)).names = s.names := by
      rw [StateFile.step]
      split_ifs
      · rfl
      · rfl
    rcases s.damage_cases decode bytes with hsame | ⟨-, -, hdamaged⟩
    · refine ⟨?_, fun i hi => ?_⟩
      · rw [hsame]
        exact h.flushed
      · rw [hsame]
        exact h.fresh i (hnames ▸ hi)
    · refine ⟨fun p hp file hfile => ?_, fun i hi => ?_⟩
      · rw [hdamaged] at hfile
        by_cases htarget : p = .target
        · subst htarget
          rw [Function.update_self] at hfile
          cases hfile
          rfl
        · rw [Function.update_of_ne htarget] at hfile
          exact h.flushed p hp file hfile
      · rw [hdamaged, Function.update_of_ne (by simp)]
        exact h.fresh i (hnames ▸ hi)

theorem Settled.after (h : s.Settled) (inputs : List FileInput) :
    (Runs.after (StateFile.step decode) s inputs).Settled :=
  Runs.invariant (fun _ input hs => hs.step input) h inputs

theorem Settled.save_target (h : s.Settled) (decode : Bytes → Option τ) (bytes : Bytes)
    (sizes kept : List ℕ) (stop : Option Stop) :
    (s.step decode (.save bytes sizes kept stop)).disk .target = some ⟨bytes, true⟩ ∨
      stop ≠ none ∧ (s.step decode (.save bytes sizes kept stop)).disk .target =
        s.disk .target := by
  have hflushed : ∀ n, Flushed (s.disk.run ((s.saveOps bytes sizes kept).take n)) :=
    h.flushed.save kept
  obtain ⟨n, hnone, hrun⟩ := perform_eq hflushed stop
  have htarget := hrun .target trivial
  rcases stop with _ | stop
  · left
    rw [hnone rfl] at htarget
    exact htarget.trans (save_run_target s.disk s.disk (some kept))
  · rcases save_take_target s.disk s.disk n (some kept) with hold | hnew
    · exact .inr ⟨by simp, htarget.trans hold⟩
    · exact .inl (htarget.trans hnew)

theorem Settled.save_previous (h : s.Settled) (decode : Bytes → Option τ) (bytes : Bytes)
    (sizes kept : List ℕ) (stop : Option Stop) :
    (s.step decode (.save bytes sizes kept stop)).disk .previous = keptCopy s.disk ∨
      stop ≠ none ∧ (s.step decode (.save bytes sizes kept stop)).disk .previous =
        s.disk .previous := by
  have hflushed : ∀ n, Flushed (s.disk.run ((s.saveOps bytes sizes kept).take n)) :=
    h.flushed.save kept
  obtain ⟨n, hnone, hrun⟩ := perform_eq hflushed stop
  have hprevious := hrun .previous trivial
  rcases stop with _ | stop
  · left
    rw [hnone rfl] at hprevious
    exact hprevious.trans (save_run_previous s.disk kept)
  · rcases save_take_previous s.disk n kept with hold | hnew
    · exact .inr ⟨by simp, hprevious.trans hold⟩
    · exact .inl (hprevious.trans hnew)

section Committed

structure Committed (decode : Bytes → Option τ) (s : StateFile τ) : Prop extends s.Settled where
  saved : 0 < s.saves → (s.disk .target).isSome = true
  value : ∀ bytes ∈ s.disk.read .target, ∃ value ∈ s.candidates, decode bytes = some value
  absent : s.disk .target = none → s.disk .previous = none
  twice : 2 ≤ s.saves → (s.disk .previous).isSome = true

theorem created_committed : (created τ).Committed decode where
  toSettled := created_settled
  saved h := absurd h (Nat.lt_irrefl 0)
  value _ h := by cases h
  absent _ := rfl
  twice h := absurd h (Nat.not_le_of_lt Nat.two_pos)

theorem keptCopy_isSome {d : Disk StatePath} (h : (d .previous).isSome = true) :
    (keptCopy d).isSome = true := by
  unfold keptCopy
  split
  · exact h
  · split_ifs
    · exact h
    · rfl

theorem keptCopy_value {d : Disk StatePath} {bytes : Bytes} (h : d.read .target = some bytes)
    (hblank : isBlank bytes = false) : keptCopy d = some ⟨bytes, true⟩ := by
  unfold keptCopy
  rw [h]
  exact if_neg (by simp [hblank])

theorem keptCopy_absent {d : Disk StatePath} (h : d .target = none) : keptCopy d = d .previous := by
  have hread : d.read .target = none := by
    rw [Disk.read, h]
    rfl
  unfold keptCopy
  rw [hread]

variable {π : Type} {parse : Bytes → Option π} {validate : π → Option τ}

theorem decodeBytes_blank {bytes : Bytes} {value : τ}
    (h : decodeBytes parse validate bytes = some value) : isBlank bytes = false := by
  unfold decodeBytes at h
  split_ifs at h with hblank
  exact Bool.eq_false_iff.mpr hblank

theorem Committed.saved_value (h : s.Committed (decodeBytes parse validate))
    (hsaves : 0 < s.saves) : ∃ bytes value, s.disk.read .target = some bytes ∧
      value ∈ s.candidates ∧ decodeBytes parse validate bytes = some value := by
  obtain ⟨file, hfile⟩ := Option.isSome_iff_exists.mp (h.saved hsaves)
  have hread : s.disk.read .target = some file.bytes := by rw [Disk.read, hfile, Option.map_some]
  obtain ⟨value, hmem, hvalue⟩ := h.value file.bytes hread
  exact ⟨file.bytes, value, hread, hmem, hvalue⟩

theorem Committed.returned (h : s.Committed (decodeBytes parse validate)) {bytes : Bytes}
    (hbytes : (decodeBytes parse validate bytes).isSome = true) (sizes kept : List ℕ) :
    (s.step (decodeBytes parse validate) (.save bytes sizes kept none)).Committed
      (decodeBytes parse validate) := by
  obtain ⟨saved, hsaved⟩ := Option.isSome_iff_exists.mp hbytes
  have hsettled : (s.step (decodeBytes parse validate) (.save bytes sizes kept none)).Settled :=
    h.toSettled.step _
  have htarget : (s.step (decodeBytes parse validate) (.save bytes sizes kept none)).disk .target =
      some ⟨bytes, true⟩ := save_run_target s.disk s.disk (some kept)
  have hprevious : (s.step (decodeBytes parse validate) (.save bytes sizes kept none)).disk
      .previous = keptCopy s.disk := save_run_previous s.disk kept
  refine ⟨hsettled, fun _ => ?_, fun content hcontent => ?_, fun hnone => ?_, fun htwice => ?_⟩
  · rw [htarget]
    rfl
  · rw [Disk.read, htarget] at hcontent
    cases hcontent
    refine ⟨saved, ?_, hsaved⟩
    simp [StateFile.step, hsaved]
  · rw [htarget] at hnone
    cases hnone
  · have hsaves : 2 ≤ s.saves + 1 := htwice
    obtain ⟨current, value, hread, -, hvalue⟩ := h.saved_value (by omega)
    rw [hprevious, keptCopy_value hread (decodeBytes_blank hvalue)]
    rfl

theorem Committed.interrupted (h : s.Committed (decodeBytes parse validate)) {bytes : Bytes}
    (hbytes : (decodeBytes parse validate bytes).isSome = true) (sizes kept : List ℕ)
    (stop : Stop) :
    (s.step (decodeBytes parse validate) (.save bytes sizes kept (some stop))).Committed
      (decodeBytes parse validate) := by
  obtain ⟨saved, hsaved⟩ := Option.isSome_iff_exists.mp hbytes
  have hsettled : (s.step (decodeBytes parse validate)
      (.save bytes sizes kept (some stop))).Settled := h.toSettled.step _
  have htarget := h.toSettled.save_target (decodeBytes parse validate) bytes sizes kept (some stop)
  have hprevious := h.toSettled.save_previous (decodeBytes parse validate) bytes sizes kept
    (some stop)
  refine ⟨hsettled, fun hsaves => ?_, fun content hcontent => ?_, fun hnone => ?_, fun htwice => ?_⟩
  · rcases htarget with hnew | ⟨-, hold⟩
    · rw [hnew]
      rfl
    · rw [hold]
      exact h.saved hsaves
  · rcases htarget with hnew | ⟨-, hold⟩
    · rw [Disk.read, hnew] at hcontent
      cases hcontent
      refine ⟨saved, ?_, hsaved⟩
      simp [StateFile.step, hsaved]
    · rw [Disk.read, hold] at hcontent
      obtain ⟨value, hmem, hvalue⟩ := h.value content hcontent
      exact ⟨value, List.mem_append_left _ hmem, hvalue⟩
  · rcases htarget with hnew | ⟨-, hold⟩
    · rw [hnew] at hnone
      cases hnone
    · rw [hold] at hnone
      rcases hprevious with hkept | ⟨-, hsame⟩
      · rw [hkept, keptCopy_absent hnone]
        exact h.absent hnone
      · rw [hsame]
        exact h.absent hnone
  · have hcopy := h.twice htwice
    rcases hprevious with hkept | ⟨-, hsame⟩
    · rw [hkept]
      exact keptCopy_isSome hcopy
    · rw [hsame]
      exact hcopy

theorem Committed.loads (h : s.Committed decode) (acceptFresh : Bool) (sizes : List ℕ) :
    (s.answer decode acceptFresh sizes).2 = [] ∧
      ((∃ bytes, s.disk.read .target = some bytes ∧ ∃ value ∈ s.candidates,
          decode bytes = some value ∧ (s.answer decode acceptFresh sizes).1 = .ok value) ∨
        s.saves = 0 ∧ (s.answer decode acceptFresh sizes).1 = .missing) := by
  have hloads := s.loads decode acceptFresh sizes
  have habsent : s.disk.read .target = none → s.disk.read .previous = none := by
    intro hread
    rw [Disk.read, h.absent (Option.map_eq_none_iff.mp hread)]
    rfl
  generalize s.answer decode acceptFresh sizes = answer at hloads ⊢
  obtain ⟨read, ops⟩ := answer
  simp only at hloads ⊢
  cases hloads with
  | ok htarget hvalue =>
    obtain ⟨value, hmem, hknown⟩ := h.value _ htarget
    have hsame := Option.some.inj (hvalue.symm.trans hknown)
    exact ⟨rfl, .inl ⟨_, htarget, value, hmem, hknown, congrArg StateFileRead.ok hsame⟩⟩
  | missing htarget hprevious =>
    refine ⟨rfl, .inr ⟨?_, rfl⟩⟩
    by_contra hsaves
    have hsome := h.saved (Nat.pos_of_ne_zero hsaves)
    rw [Option.map_eq_none_iff.mp htarget] at hsome
    cases hsome
  | replaced htarget hprevious hvalue =>
    rw [habsent htarget] at hprevious
    cases hprevious
  | restored htarget hdamaged hprevious hvalue =>
    obtain ⟨value, -, hknown⟩ := h.value _ htarget
    rw [hdamaged] at hknown
    cases hknown
  | corrupt htarget hprevious hpresent hops hcopy =>
    rcases hread : s.disk.read .target with _ | bytes
    · rw [hread, habsent hread] at hpresent
      simp at hpresent
    · obtain ⟨value, -, hknown⟩ := h.value bytes hread
      rw [hread, Option.bind_some, hknown] at htarget
      cases htarget

theorem Committed.load (h : s.Committed decode) (acceptFresh : Bool) (sizes : List ℕ)
    (stop : Option Stop) : (s.step decode (.load acceptFresh sizes stop)).Committed decode := by
  have hsettled : (s.step decode (.load acceptFresh sizes stop)).Settled := h.toSettled.step _
  obtain ⟨hops, hanswer⟩ := h.loads acceptFresh sizes
  have hsame : ∀ p : StatePath, p.Lasting →
      (s.step decode (.load acceptFresh sizes stop)).disk p = s.disk p := by
    intro p hp
    refine perform_untouched ((s.loads decode acceptFresh sizes).flushed h.flushed) stop hp ?_
    rw [hops]
    exact fun op hop => (by cases hop)
  have htarget := hsame .target trivial
  have hprevious := hsame .previous trivial
  refine ⟨hsettled, fun hsaves => ?_, fun content hcontent => ?_, fun hnone => ?_, fun htwice => ?_⟩
  · rw [htarget]
    exact h.saved hsaves
  · rw [Disk.read, htarget] at hcontent
    obtain ⟨value, hmem, hvalue⟩ := h.value content hcontent
    refine ⟨value, ?_, hvalue⟩
    rcases hanswer with ⟨bytes, hread, known, -, hknown, hok⟩ | ⟨-, hmissing⟩
    · have hbytes := Option.some.inj (hread.symm.trans hcontent)
      subst hbytes
      have hvalues := Option.some.inj (hvalue.symm.trans hknown)
      subst hvalues
      simp only [StateFile.step, hok, StateFileRead.value?, Option.elim_some]
      split_ifs
      · exact List.mem_singleton_self value
      · exact hmem
    · simp only [StateFile.step, hmissing, StateFileRead.value?, Option.elim_none, ite_self]
      exact hmem
  · rw [htarget] at hnone
    rw [hprevious]
    exact h.absent hnone
  · rw [hprevious]
    exact h.twice htwice

theorem Committed.step (h : s.Committed (decodeBytes parse validate)) {input : FileInput}
    (hsaves : input.Saves (decodeBytes parse validate)) (hundamaging : input.Undamaging) :
    (s.step (decodeBytes parse validate) input).Committed (decodeBytes parse validate) := by
  cases input with
  | save bytes sizes kept stop =>
    rcases stop with _ | stop
    · exact h.returned hsaves sizes kept
    · exact h.interrupted hsaves sizes kept stop
  | load acceptFresh sizes stop => exact h.load acceptFresh sizes stop
  | damage bytes => exact hundamaging.elim

end Committed

/-- The previous copy, if there is one, can be read. -/
structure Kept (decode : Bytes → Option τ) (s : StateFile τ) : Prop extends s.Settled where
  good : ∀ copy ∈ s.disk.read .previous, (decode copy).isSome = true

theorem created_kept : (created τ).Kept decode where
  toSettled := created_settled
  good _ h := by cases h

theorem Kept.previous (h : s.Kept decode) (acceptFresh : Bool) (sizes : List ℕ)
    (stop : Option Stop) : (s.step decode (.load acceptFresh sizes stop)).disk.read .previous =
      s.disk.read .previous := by
  have hlasting : StatePath.previous.Lasting := trivial
  have hloads := s.loads decode acceptFresh sizes
  have hrestore : ∀ copy, ∀ op ∈ writeFileDurablySync s.disk s.names copy sizes none,
      StatePath.previous ∉ op.paths := fun copy => save_untouched hlasting (by simp) (.inr rfl)
  have huntouched : ∀ op ∈ (s.answer decode acceptFresh sizes).2,
      StatePath.previous ∉ op.paths := by
    generalize s.answer decode acceptFresh sizes = answer at hloads ⊢
    obtain ⟨read, ops⟩ := answer
    simp only at hloads ⊢
    cases hloads with
    | ok | missing => exact fun op hop => (by cases hop)
    | replaced => exact hrestore _
    | restored =>
      intro op hop
      rcases List.mem_cons.mp hop with rfl | hop
      · simp [FileOp.paths]
      · exact hrestore _ op hop
    | corrupt htarget hprevious hpresent hops hcopy =>
      apply hcopy
      rcases hread : s.disk.read .previous with _ | copy
      · rfl
      · have hsome := h.good copy hread
        rw [hread, Option.bind_some] at hprevious
        rw [hprevious] at hsome
        cases hsome
  exact congrArg (Option.map StoredFile.bytes)
    (perform_untouched (hloads.flushed h.flushed) stop hlasting huntouched)

theorem Kept.step (h : s.Kept decode) {input : FileInput} (htended : input.Tended decode s) :
    (s.step decode input).Kept decode := by
  have hsettled : (s.step decode input).Settled := h.toSettled.step input
  refine ⟨hsettled, fun copy hcopy => ?_⟩
  cases input with
  | save bytes sizes kept stop =>
    rcases h.toSettled.save_previous decode bytes sizes kept stop with
      hkept | ⟨-, hold⟩
    · rw [Disk.read, hkept] at hcopy
      unfold keptCopy at hcopy
      split at hcopy
      · exact h.good copy hcopy
      · next current hread =>
        split_ifs at hcopy with hblank
        · exact h.good copy hcopy
        · cases hcopy
          exact (htended current hread).resolve_left hblank
    · rw [Disk.read, hold] at hcopy
      exact h.good copy hcopy
  | load acceptFresh sizes stop =>
    rw [h.previous] at hcopy
    exact h.good copy hcopy
  | damage bytes =>
    rcases s.damage_cases decode bytes with hsame | ⟨-, -, hdamaged⟩
    · rw [hsame] at hcopy
      exact h.good copy hcopy
    · rw [Disk.read, hdamaged, Function.update_of_ne (by simp)] at hcopy
      exact h.good copy hcopy

structure Recoverable (decode : Bytes → Option τ) (value : τ) (s : StateFile τ) : Prop
    extends s.Kept decode where
  copy : (s.disk.read .previous).bind decode = some value
  target : ∀ found ∈ (s.disk.read .target).bind decode, found = value

theorem Recoverable.answer {value : τ} (h : s.Recoverable decode value) (acceptFresh : Bool)
    (sizes : List ℕ) : (s.answer decode acceptFresh sizes).1.value? = some value := by
  have hloads := s.loads decode acceptFresh sizes
  have hcopy := h.copy
  generalize s.answer decode acceptFresh sizes = answer at hloads ⊢
  obtain ⟨read, ops⟩ := answer
  simp only at hloads ⊢
  cases hloads with
  | @ok bytes found htarget hvalue =>
    have hfound := h.target found (by rw [htarget, Option.bind_some, hvalue]; rfl)
    exact congrArg some hfound
  | missing htarget hprevious =>
    rw [hprevious] at hcopy
    cases hcopy
  | replaced htarget hprevious hvalue =>
    rw [hprevious, Option.bind_some, hvalue] at hcopy
    exact hcopy
  | restored htarget hdamaged hprevious hvalue =>
    rw [hprevious, Option.bind_some, hvalue] at hcopy
    exact hcopy
  | corrupt htarget hprevious hpresent hops _ =>
    rw [hprevious] at hcopy
    cases hcopy

theorem Recoverable.load {value : τ} (h : s.Recoverable decode value) (acceptFresh : Bool)
    (sizes : List ℕ) (stop : Option Stop) :
    (s.step decode (.load acceptFresh sizes stop)).Recoverable decode value := by
  have hprevious := h.toKept.previous acceptFresh sizes stop
  refine ⟨h.toKept.step trivial, hprevious ▸ h.copy, fun found hfound => ?_⟩
  have hcopy := h.copy
  have hloads := s.loads decode acceptFresh sizes
  obtain ⟨n, -, hrun⟩ := perform_eq (hloads.flushed h.flushed) stop
  have htarget := congrArg (Option.map StoredFile.bytes) (hrun .target trivial)
  have hread : (s.step decode (.load acceptFresh sizes stop)).disk.read .target =
      (s.disk.run ((s.answer decode acceptFresh sizes).2.take n)).read .target := htarget
  rw [hread] at hfound
  generalize s.answer decode acceptFresh sizes = answer at hloads hfound
  obtain ⟨read, ops⟩ := answer
  simp only at hloads hfound
  have hold : (s.disk.run (ops.take n)) .target = s.disk .target → found = value := by
    intro hsame
    rw [Disk.read, hsame] at hfound
    exact h.target found hfound
  have hnew : ∀ {copy : Bytes} {known : τ}, s.disk.read .previous = some copy →
      decode copy = some known →
      (s.disk.run (ops.take n)) .target = some ⟨copy, true⟩ → found = value := by
    intro copy known hkept hknown hsame
    rw [Disk.read, hsame, Option.map_some, Option.bind_some] at hfound
    rw [hkept, Option.bind_some] at hcopy
    exact Option.some.inj ((Option.mem_def.mp hfound).symm.trans hcopy)
  cases hloads with
  | ok | missing => exact hold (by rw [List.take_nil]; rfl)
  | @replaced copy known hnone hkept hknown =>
    rcases save_take_target s.disk s.disk n none with hsame | hsame
    · exact hold hsame
    · exact hnew hkept hknown hsame
  | @restored bytes copy known hbytes hdamaged hkept hknown =>
    rcases Disk.run_take_cons n s.disk (.rename .target (.aside s.names)) _ with hsame | hrest
    · exact hold (congrFun hsame _)
    · rcases save_take_target s.disk (s.disk.apply (.rename .target (.aside s.names))) (n - 1) none
        with hgone | hsame
      · rw [Disk.read, hrest, hgone, Disk.apply, Function.update_self] at hfound
        cases hfound
      · exact hnew hkept hknown ((congrFun hrest _).trans hsame)
  | corrupt hnone hundecoded hpresent hops _ =>
    rw [hundecoded] at hcopy
    cases hcopy

theorem Recoverable.loads {value : τ} (h : s.Recoverable decode value) {inputs : List FileInput}
    (hloads : ∀ input ∈ inputs, input.IsLoad) :
    (Runs.after (StateFile.step decode) s inputs).Recoverable decode value := by
  induction inputs generalizing s with
  | nil => exact h
  | cons input inputs ih =>
    have hrest : ∀ i ∈ inputs, i.IsLoad := fun i hi => hloads i (List.mem_cons_of_mem _ hi)
    cases input with
    | load acceptFresh sizes stop => exact ih (h.load acceptFresh sizes stop) hrest
    | save bytes sizes kept stop => exact (hloads _ List.mem_cons_self).elim
    | damage bytes => exact (hloads _ List.mem_cons_self).elim

def Holds (s : StateFile τ) (bytes : Bytes) : Prop :=
  s.disk.read .target = some bytes ∨ ∃ i < s.names, s.disk.read (.aside i) = some bytes

theorem run_take_aside {d : Disk StatePath} {name : ℕ} {bytes : Bytes}
    {rest : List (FileOp StatePath)} (hread : d.read .target = some bytes)
    (hrest : ∀ op ∈ rest, StatePath.aside name ∉ op.paths) (n : ℕ) :
    (d.run ((.rename .target (.aside name) :: rest).take n)).read .target = some bytes ∨
      (d.run ((.rename .target (.aside name) :: rest).take n)).read (.aside name) =
        some bytes := by
  rcases Disk.run_take_cons n d (.rename .target (.aside name)) rest with hrun | hrun
  · left
    rw [hrun]
    exact hread
  · right
    rw [hrun, Disk.read, Disk.run_take_untouched _ hrest, Disk.apply,
      Function.update_of_ne (by simp), Function.update_self]
    exact hread

theorem Settled.load_holds (h : s.Settled) {bytes : Bytes} (hholds : s.Holds bytes)
    (acceptFresh : Bool) (sizes : List ℕ) (stop : Option Stop) :
    (s.step decode (.load acceptFresh sizes stop)).Holds bytes := by
  rcases hholds with hread | ⟨i, hi, hread⟩
  · have hloads := s.loads decode acceptFresh sizes
    obtain ⟨n, -, hrun⟩ := perform_eq (hloads.flushed h.flushed) stop
    have htarget := congrArg (Option.map StoredFile.bytes) (hrun .target trivial)
    have haside := congrArg (Option.map StoredFile.bytes) (hrun (.aside s.names) trivial)
    suffices hfound : (s.disk.run ((s.answer decode acceptFresh sizes).2.take n)).read .target =
        some bytes ∨ (s.disk.run ((s.answer decode acceptFresh sizes).2.take n)).read
          (.aside s.names) = some bytes by
      rcases hfound with hfound | hfound
      · exact .inl (htarget.trans hfound)
      · exact .inr ⟨s.names, Nat.lt_add_of_pos_right Nat.two_pos, haside.trans hfound⟩
    generalize s.answer decode acceptFresh sizes = answer at hloads ⊢
    obtain ⟨read, ops⟩ := answer
    simp only at hloads ⊢
    cases hloads with
    | ok | missing =>
      left
      rw [List.take_nil]
      exact hread
    | replaced hnone =>
      rw [hnone] at hread
      cases hread
    | restored =>
      exact run_take_aside hread (save_untouched trivial (by simp) (.inr rfl)) n
    | corrupt hnone hundecoded hpresent hops _ =>
      rcases hops with rfl | rfl | rfl | rfl
      · left
        rw [List.take_nil]
        exact hread
      · left
        rw [Disk.read, Disk.run_take_untouched n (by simp [FileOp.paths])]
        exact hread
      · exact run_take_aside hread (by simp) n
      · exact run_take_aside hread (by simp [FileOp.paths]) n
  · right
    refine ⟨i, Nat.lt_add_right 2 hi, ?_⟩
    have hsame := h.aside decode (.load acceptFresh sizes stop) (i := i) (by omega) (by omega)
    rw [Disk.read, hsame]
    exact hread

theorem Settled.loads_hold (h : s.Settled) {bytes : Bytes} (hholds : s.Holds bytes)
    {inputs : List FileInput} (hloads : ∀ input ∈ inputs, input.IsLoad) :
    (Runs.after (StateFile.step decode) s inputs).Holds bytes := by
  induction inputs generalizing s with
  | nil => exact hholds
  | cons input inputs ih =>
    have hrest : ∀ i ∈ inputs, i.IsLoad := fun i hi => hloads i (List.mem_cons_of_mem _ hi)
    cases input with
    | load acceptFresh sizes stop =>
      exact ih (h.step _) (h.load_holds hholds acceptFresh sizes stop) hrest
    | save bytes sizes kept stop => exact (hloads _ List.mem_cons_self).elim
    | damage bytes => exact (hloads _ List.mem_cons_self).elim

end StateFile

section Runs

variable {π τ : Type} {parse : Bytes → Option π} {validate : π → Option τ}

theorem committed_runs {inputs : List FileInput}
    (hsaves : ∀ input ∈ inputs, input.Saves (decodeBytes parse validate))
    (hundamaging : ∀ input ∈ inputs, input.Undamaging) :
    (Runs.after (StateFile.step (decodeBytes parse validate)) (.created τ) inputs).Committed
      (decodeBytes parse validate) := by
  suffices h : ∀ s : StateFile τ, s.Committed (decodeBytes parse validate) →
      (Runs.after (StateFile.step (decodeBytes parse validate)) s inputs).Committed
        (decodeBytes parse validate) from h _ StateFile.created_committed
  induction inputs with
  | nil => exact fun s h => h
  | cons input inputs ih =>
    intro s h
    refine ih (fun i hi => hsaves i (List.mem_cons_of_mem _ hi))
      (fun i hi => hundamaging i (List.mem_cons_of_mem _ hi)) _ ?_
    exact h.step (hsaves input List.mem_cons_self) (hundamaging input List.mem_cons_self)

def zeroedInputs : List FileInput :=
  [.save [49] [] [] none, .save [50] [] [] none, .damage [0]]

def parseDigit (bytes : Bytes) : Option ℕ :=
  if bytes = [49] then some 1 else if bytes = [50] then some 2 else none

end Runs

end Terminay.Files
